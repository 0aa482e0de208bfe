import Mathlib.Algebra.GroupWithZero.Nat
import Mathlib.Data.List.Basic

/-!
# LocalAgent.Runtime.RequestPayload — `core/request_payload.py`

`RequestBodyLimitMiddleware`: the declared length is checked first, then the messages of `receive`
are buffered and counted up to the first one without `more_body`, and only a body inside the limit
reaches the application, which reads the buffer and then the rest.  `receive` is the list of the
messages it still produces; after the last one it waits.  `int()` of the language refuses texts of
more than 4300 digits.

* `replay_received`: the application reads the messages as `receive` produced them.
* `gather_forward_iff`: when the loop hands the body on.
* `call_sound_iff`: the middleware does what it promises exactly when `int()` takes the length.
-/

namespace LocalAgent.Runtime

namespace RequestPayload

/-- `sys.get_int_max_str_digits()`. -/
def intMaxStrDigits : ℕ := 4300

abbrev Bytes := List UInt8

/-- `message["body"]`: bytes, or anything else. -/
inductive MessageBody where
  | bytes (body : Bytes)
  | other
  deriving DecidableEq

/-- An ASGI message: the entries the middleware reads. -/
structure Message where
  type : Option String
  body : Option MessageBody
  moreBody : Option Bool
  deriving DecidableEq

/-- What is sent to the client. -/
inductive Sent where
  | start (status : ℕ) (contentType contentLength : String)
  | body (body : String) (moreBody : Bool)
  deriving DecidableEq

/-- `replay_receive`, with its buffer, its index and what `receive` still produces. -/
structure Replay where
  buffered : List Message
  index : ℕ
  rest : List Message

/-- One call of `replay_receive`; `none` waits. -/
def Replay.receive (replay : Replay) : Option (Message × Replay) :=
  if h : replay.index < replay.buffered.length then
    some (replay.buffered.get ⟨replay.index, h⟩, { replay with index := replay.index + 1 })
  else
    match replay.rest with
    | [] => none
    | message :: rest => some (message, { replay with rest := rest })

/-- What the first `n` calls return. -/
def Replay.received : ℕ → Replay → List Message
  | 0, _ => []
  | n + 1, replay =>
    match replay.receive with
    | none => []
    | some (message, next) => message :: next.received n

inductive Finish where
  | returned | raised | waiting
  deriving DecidableEq

/-- What a call of the middleware comes to. -/
structure Outcome where
  sent : List Sent
  app : Option Replay
  finish : Finish

/-- `_send_fixed_json`. -/
def fixedJson (status : ℕ) (body : String) : List Sent :=
  [.start status "application/json" (toString body.utf8ByteSize), .body body false]

def invalidContentLength : List Sent := fixedJson 400 "\x7b\"detail\":\"Invalid Content-Length\"\x7d"

def payloadTooLarge : List Sent := fixedJson 413 "\x7b\"detail\":\"Payload Too Large\"\x7d"

/-- A byte of `bytes.lower()`. -/
def lowerByte (b : UInt8) : UInt8 := if 65 ≤ b ∧ b ≤ 90 then b + 32 else b

/-- `b"content-length"`. -/
def contentLengthName : Bytes := "content-length".toUTF8.toList

/-- The values of the `content-length` headers. -/
def contentLengths (headers : List (Bytes × Bytes)) : List Bytes :=
  (headers.filter fun header => header.1.map lowerByte = contentLengthName).map Prod.snd

/-- All bytes are ASCII digits, and there is one. -/
def IsDigits (value : Bytes) : Prop := value ≠ [] ∧ ∀ b ∈ value, 48 ≤ b ∧ b ≤ 57
  deriving Decidable

/-- The number the digits denote. -/
def digitsValue (value : Bytes) : ℕ := value.foldl (fun n b => n * 10 + (b.toNat - 48)) 0

/-- `int(value)` on digits; `none` is its `ValueError`. -/
def pyInt (value : Bytes) : Option ℕ :=
  if intMaxStrDigits < value.length then none else some (digitsValue value)

/-- `_parse_content_length`; `none` is the exception of `int`. -/
def parseContentLength (value : Bytes) : Option (Option ℕ) :=
  if ¬ IsDigits value then some none else (pyInt value).map some

/-- How the loop over `receive` ends. -/
inductive Gathered where
  | waiting
  | dropped
  | tooLarge
  | forward (buffered rest : List Message)

/-- `while True: message = await receive() ...`. -/
def gather (max : ℕ) : List Message → List Message → ℕ → Gathered
  | [], _, _ => .waiting
  | message :: rest, buffered, total =>
    if message.type = some "http.disconnect" then .dropped
    else if message.type ≠ some "http.request" then .dropped
    else
      match message.body.getD (.bytes []) with
      | .other => .dropped
      | .bytes body =>
        if max < total + body.length then .tooLarge
        else if message.moreBody.getD false = false then .forward (buffered ++ [message]) rest
        else gather max rest (buffered ++ [message]) (total + body.length)

/-- The part of `__call__` after the declared length. -/
def readBody (max : ℕ) (messages : List Message) : Outcome :=
  match gather max messages [] 0 with
  | .waiting => ⟨[], none, .waiting⟩
  | .dropped => ⟨[], none, .returned⟩
  | .tooLarge => ⟨payloadTooLarge, none, .returned⟩
  | .forward buffered rest => ⟨[], some ⟨buffered, 0, rest⟩, .returned⟩

/-- `RequestBodyLimitMiddleware.__call__` on an HTTP scope. -/
def call (max : ℕ) (headers : List (Bytes × Bytes)) (messages : List Message) : Outcome :=
  match contentLengths headers with
  | [] => readBody max messages
  | [value] =>
    match parseContentLength value with
    | none => ⟨[], none, .raised⟩
    | some none => ⟨invalidContentLength, none, .returned⟩
    | some (some declared) =>
      if max < declared then ⟨payloadTooLarge, none, .returned⟩ else readBody max messages
  | _ :: _ :: _ => ⟨invalidContentLength, none, .returned⟩

/-! ## What the application reads -/

/-- Past the buffer the replay reads on from the connection. -/
theorem received_rest (n : ℕ) (buffered rest : List Message) (index : ℕ)
    (h : buffered.length ≤ index) :
    (⟨buffered, index, rest⟩ : Replay).received n = rest.take n := by
  induction n generalizing rest with
  | zero => simp [Replay.received]
  | succ _ ih =>
    have hnot : ¬ index < buffered.length := Nat.not_lt.mpr h
    cases rest with
    | nil => simp [Replay.received, Replay.receive, hnot]
    | cons message rest =>
      have hreceive : (⟨buffered, index, message :: rest⟩ : Replay).receive =
          some (message, ⟨buffered, index, rest⟩) := by
        simp [Replay.receive, hnot]
      rw [Replay.received, hreceive, List.take_succ_cons]
      exact congrArg _ (ih rest)

theorem received_from (n : ℕ) (buffered rest : List Message) (index : ℕ) :
    (⟨buffered, index, rest⟩ : Replay).received n = (buffered.drop index ++ rest).take n := by
  induction n generalizing index with
  | zero => simp [Replay.received]
  | succ _ ih =>
    by_cases h : index < buffered.length
    · have hreceive : (⟨buffered, index, rest⟩ : Replay).receive =
          some (buffered[index], ⟨buffered, index + 1, rest⟩) := by
        simp [Replay.receive, h]
      rw [Replay.received, hreceive, List.drop_eq_getElem_cons h, List.cons_append,
        List.take_succ_cons]
      exact congrArg _ (ih (index + 1))
    · rw [received_rest _ _ _ _ (Nat.not_lt.mp h), List.drop_eq_nil_of_le (Nat.not_lt.mp h),
        List.nil_append]

/-- **The application reads the buffer and then the rest.** -/
theorem replay_received (n : ℕ) (buffered rest : List Message) :
    (⟨buffered, 0, rest⟩ : Replay).received n = (buffered ++ rest).take n := by
  rw [received_from, List.drop_zero]

/-! ## The loop -/

/-- A request message with a body of bytes. -/
def Message.WellFormed (message : Message) : Prop :=
  message.type = some "http.request" ∧ message.body ≠ some .other

/-- The bytes of a message. -/
def Message.bodyBytes (message : Message) : Bytes :=
  match message.body with
  | some (.bytes body) => body
  | _ => []

/-- The length of the bodies together. -/
def totalLength (messages : List Message) : ℕ := (messages.map fun m => m.bodyBytes.length).sum

/-- `buffered` is the request up to the first message without `more_body`: well formed, and
inside the limit. -/
structure Body (max : ℕ) (messages buffered rest : List Message) : Prop where
  split : messages = buffered ++ rest
  request : ∃ pre last, buffered = pre ++ [last] ∧ (∀ m ∈ pre, m.moreBody = some true) ∧
    last.moreBody ≠ some true
  wellFormed : ∀ m ∈ buffered, m.WellFormed
  total : totalLength buffered ≤ max

theorem body_of_wellFormed {message : Message} (h : message.WellFormed) :
    message.body.getD (.bytes []) = .bytes message.bodyBytes := by
  obtain ⟨-, hbody⟩ := h
  unfold Message.bodyBytes
  cases hb : message.body with
  | none => rfl
  | some body =>
    cases body with
    | bytes => rfl
    | other => exact absurd hb hbody

variable {max : ℕ} {messages rest : List Message} {headers : List (Bytes × Bytes)}
  {buffered : List Message}

theorem gather_forward {before : List Message} {total : ℕ}
(h : gather max messages before total = .forward buffered rest) :
    ∃ own, buffered = before ++ own ∧ messages = own ++ rest ∧
      (∃ pre last, own = pre ++ [last] ∧ (∀ m ∈ pre, m.moreBody = some true) ∧
        last.moreBody ≠ some true) ∧
      (∀ m ∈ own, m.WellFormed) ∧ total + totalLength own ≤ max := by
  induction messages generalizing before total with
  | nil => cases h
  | cons message messages ih =>
    unfold gather at h
    by_cases h1 : message.type = some "http.disconnect"
    · rw [if_pos h1] at h
      exact nomatch h
    by_cases h2 : message.type ≠ some "http.request"
    · rw [if_neg h1, if_pos h2] at h
      exact nomatch h
    rw [if_neg h1, if_neg h2] at h
    cases hbody : message.body.getD (.bytes []) with
    | other =>
      rw [hbody] at h
      exact nomatch h
    | bytes body =>
      have hwf : message.WellFormed := by
        refine ⟨not_not.mp h2, fun hother => ?_⟩
        rw [hother] at hbody
        exact nomatch hbody
      have hlen : body = message.bodyBytes := by
        rw [body_of_wellFormed hwf] at hbody
        exact (MessageBody.bytes.inj hbody).symm
      rw [hbody] at h
      replace h : (if max < total + body.length then Gathered.tooLarge
        else if message.moreBody.getD false = false then .forward (before ++ [message]) messages
        else gather max messages (before ++ [message]) (total + body.length)) = _ := h
      by_cases h3 : max < total + body.length
      · rw [if_pos h3] at h
        exact nomatch h
      rw [if_neg h3] at h
      have hsum : ∀ own, totalLength (message :: own) = body.length + totalLength own := by
        intro own
        rw [hlen]
        rfl
      split_ifs at h with h4
      · obtain ⟨rfl, rfl⟩ := Gathered.forward.inj h
        refine ⟨[message], rfl, rfl, ⟨[], message, rfl, nofun, fun hm => ?_⟩, ?_, ?_⟩
        · rw [hm] at h4
          exact nomatch h4
        · intro m hm
          rw [List.mem_singleton] at hm
          exact hm ▸ hwf
        · rw [hsum]
          show total + (body.length + 0) ≤ max
          omega
      · have hmb : message.moreBody = some true := by
          cases hmb : message.moreBody with
          | none => exact absurd (by rw [hmb]; rfl) h4
          | some more =>
            cases more with
            | false => exact absurd (by rw [hmb]; rfl) h4
            | true => rfl
        obtain ⟨own, hbuf, hsplit, ⟨pre, last, hown, hmore, hlast⟩, hall, htotal⟩ := ih h
        refine ⟨message :: own, ?_, ?_, ⟨message :: pre, last, ?_, ?_, hlast⟩, ?_, ?_⟩
        · rw [hbuf, List.append_assoc]
          rfl
        · rw [hsplit]
          rfl
        · rw [hown]
          rfl
        · intro m hm
          rcases List.mem_cons.mp hm with rfl | hm
          · exact hmb
          · exact hmore m hm
        · intro m hm
          rcases List.mem_cons.mp hm with rfl | hm
          · exact hwf
          · exact hall m hm
        · rw [hsum]
          omega

/-- The messages of a request are gathered up to its last body part. -/
theorem gather_of_body {own before : List Message} {total : ℕ}
    (hrequest : ∃ pre last, own = pre ++ [last] ∧ (∀ m ∈ pre, m.moreBody = some true) ∧
      last.moreBody ≠ some true)
    (hwf : ∀ m ∈ own, m.WellFormed) (htotal : total + totalLength own ≤ max) :
    gather max (own ++ rest) before total = .forward (before ++ own) rest := by
  induction own generalizing before total with
  | nil =>
    obtain ⟨pre, last, hown, -⟩ := hrequest
    exact absurd hown (by simp)
  | cons message own ih =>
    have hm := hwf message List.mem_cons_self
    have htype : message.type = some "http.request" := hm.1
    have hsum : totalLength (message :: own) = message.bodyBytes.length + totalLength own := rfl
    have hstep : gather max (message :: own ++ rest) before total =
        if message.moreBody.getD false = false then
          .forward (before ++ [message]) (own ++ rest)
        else gather max (own ++ rest) (before ++ [message])
          (total + message.bodyBytes.length) := by
      rw [List.cons_append, gather, if_neg (by rw [htype]; decide),
        if_neg (not_not.mpr htype), body_of_wellFormed hm]
      exact if_neg (by omega)
    rw [hstep]
    obtain ⟨pre, last, hown, hmore, hlast⟩ := hrequest
    cases pre with
    | nil =>
      obtain ⟨rfl, rfl⟩ := List.cons.inj hown
      have hend : message.moreBody.getD false = false := by
        cases hmb : message.moreBody with
        | none => rfl
        | some more =>
          cases more with
          | false => rfl
          | true => exact absurd hmb hlast
      rw [if_pos hend]
      rfl
    | cons _ pre =>
      obtain ⟨rfl, htail⟩ := List.cons.inj hown
      have hgo : ¬ message.moreBody.getD false = false := by
        rw [hmore message List.mem_cons_self]
        nofun
      rw [if_neg hgo,
        ih ⟨pre, last, htail, fun m hin => hmore m (List.mem_cons_of_mem _ hin), hlast⟩
        (fun m hin => hwf m (List.mem_cons_of_mem _ hin)) (by omega), List.append_assoc]
      rfl

/-- The reading forwards exactly the requests whose body is within the limit. -/
theorem gather_forward_iff :
    gather max messages [] 0 = .forward buffered rest ↔ Body max messages buffered rest := by
  constructor
  · intro h
    obtain ⟨_, rfl, hsplit, hrequest, hwf, htotal⟩ := gather_forward h
    rw [Nat.zero_add] at htotal
    exact ⟨hsplit, hrequest, hwf, htotal⟩
  · intro h
    have hgather := @gather_of_body max rest buffered [] 0 h.request h.wellFormed (by
      rw [Nat.zero_add]
      exact h.total)
    rwa [h.split]

/-! ## One call -/

/-- At most one `content-length`, of digits that denote a number inside the limit. -/
def HeaderOk (max : ℕ) (headers : List (Bytes × Bytes)) : Prop :=
  contentLengths headers = [] ∨
    ∃ value, contentLengths headers = [value] ∧ IsDigits value ∧ digitsValue value ≤ max

/-- What the middleware promises of one call. -/
structure Sound (max : ℕ) (headers : List (Bytes × Bytes)) (messages : List Message)
    (outcome : Outcome) : Prop where
  invoked : outcome.app ≠ none ↔
    HeaderOk max headers ∧ ∃ buffered rest, Body max messages buffered rest
  replayed : ∀ replay, outcome.app = some replay →
    outcome.sent = [] ∧ replay.index = 0 ∧ Body max messages replay.buffered replay.rest ∧
      ∀ n, replay.received n = messages.take n
  refused : outcome.app = none →
    outcome.sent = [] ∨ outcome.sent = invalidContentLength ∨ outcome.sent = payloadTooLarge
  quiet : outcome.finish ≠ .raised

/-- `int()` takes the declared length: one header with digits has at most 4300 of them. -/
def LengthReadable (headers : List (Bytes × Bytes)) : Prop :=
  ∀ value, contentLengths headers = [value] → IsDigits value → value.length ≤ intMaxStrDigits

theorem readBody_app {replay : Replay} :
    (readBody max messages).app = some replay ↔
      replay.index = 0 ∧ Body max messages replay.buffered replay.rest := by
  unfold readBody
  rw [← gather_forward_iff]
  cases hg : gather max messages [] 0 with
  | waiting | dropped | tooLarge => simp
  | forward =>
    obtain ⟨b, i, r⟩ := replay
    simp only [Option.some.injEq, Replay.mk.injEq, Gathered.forward.injEq]
    constructor
    all_goals
      rintro ⟨rfl, rfl, rfl⟩
      exact ⟨rfl, rfl, rfl⟩

theorem readBody_sent :
    ((readBody max messages).sent = [] ∨ (readBody max messages).sent = payloadTooLarge) ∧
      ((readBody max messages).app ≠ none → (readBody max messages).sent = []) ∧
      (readBody max messages).finish ≠ .raised := by
  unfold readBody
  cases gather max messages [] 0 with
  | waiting | dropped | forward => exact ⟨Or.inl rfl, fun _ => rfl, nofun⟩
  | tooLarge => exact ⟨Or.inr rfl, fun h => absurd rfl h, nofun⟩

/-- What the middleware does is sound for every header that is read as a number. -/
theorem readBody_sound
    (hheader : HeaderOk max headers) : Sound max headers messages (readBody max messages) := by
  obtain ⟨hsent, hforward, hfinish⟩ := @readBody_sent max messages
  refine ⟨?_, fun replay happ => ?_, fun _ => hsent.imp id Or.inr, hfinish⟩
  · constructor
    · intro h
      obtain ⟨replay, happ⟩ := Option.ne_none_iff_exists'.mp h
      exact ⟨hheader, _, _, (readBody_app.mp happ).2⟩
    · rintro ⟨-, buffered, rest, hbody⟩
      have happ : (readBody max messages).app = some ⟨buffered, 0, rest⟩ :=
        readBody_app.mpr ⟨rfl, hbody⟩
      rw [happ]
      exact Option.some_ne_none _
  · obtain ⟨hindex, hbody⟩ := readBody_app.mp happ
    refine ⟨hforward (by rw [happ]; exact Option.some_ne_none _), hindex, hbody, fun n => ?_⟩
    obtain ⟨_, index, _⟩ := replay
    obtain rfl : index = 0 := hindex
    rw [replay_received, ← hbody.split]

theorem refused_sound {sent : List Sent} (hheader : ¬ HeaderOk max headers)
    (hsent : sent = invalidContentLength ∨ sent = payloadTooLarge) :
    Sound max headers messages ⟨sent, none, .returned⟩ :=
  ⟨⟨fun h => absurd rfl h, fun h => absurd h.1 hheader⟩, nofun, fun _ => Or.inr hsent, nofun⟩

theorem call_raised
    {value : Bytes} (hlengths : contentLengths headers = [value]) (hdigits : IsDigits value)
    (hlong : intMaxStrDigits < value.length) : call max headers messages = ⟨[], none, .raised⟩ := by
  simp [call, hlengths, parseContentLength, hdigits, pyInt, if_pos hlong]

/-- **The payload gate.**  A call keeps every promise exactly when `int()` takes the declared
length. -/
theorem call_sound_iff (max : ℕ) (headers : List (Bytes × Bytes)) (messages : List Message) :
    Sound max headers messages (call max headers messages) ↔ LengthReadable headers := by
  cases hlengths : contentLengths headers with
  | nil =>
    have hcall : call max headers messages = readBody max messages := by
      rw [call, hlengths]
    rw [hcall]
    refine ⟨fun _ value h _ => ?_, fun _ => readBody_sound (Or.inl hlengths)⟩
    cases hlengths.symm.trans h
  | cons value values =>
    cases values with
    | cons =>
      have hcall : call max headers messages = ⟨invalidContentLength, none, .returned⟩ := by
        rw [call, hlengths]
      have hheader : ¬ HeaderOk max headers := by
        rintro (h | ⟨v, h, -⟩)
        all_goals cases hlengths.symm.trans h
      rw [hcall]
      refine ⟨fun _ v h _ => ?_, fun _ => refused_sound hheader (Or.inl rfl)⟩
      cases hlengths.symm.trans h
    | nil =>
      have hone : ∀ v, contentLengths headers = [v] → v = value := fun v h =>
        (List.cons.inj (hlengths.symm.trans h)).1.symm
      have hok : HeaderOk max headers ↔ IsDigits value ∧ digitsValue value ≤ max := by
        constructor
        · rintro (h | ⟨v, h, hv⟩)
          · cases hlengths.symm.trans h
          · exact hone v h ▸ hv
        · exact fun h => Or.inr ⟨value, hlengths, h⟩
      have hreadable : LengthReadable headers ↔
          (IsDigits value → value.length ≤ intMaxStrDigits) :=
        ⟨fun h => h value hlengths, fun h v hv hd => hone v hv ▸ h (hone v hv ▸ hd)⟩
      rw [hreadable]
      by_cases hdigits : IsDigits value
      · by_cases hlong : intMaxStrDigits < value.length
        · rw [call_raised hlengths hdigits hlong]
          exact ⟨fun h => absurd rfl h.quiet, fun h => absurd (h hdigits) (Nat.not_le.mpr hlong)⟩
        · refine ⟨fun _ _ => Nat.not_lt.mp hlong, fun _ => ?_⟩
          have hcall : call max headers messages =
              if max < digitsValue value then ⟨payloadTooLarge, none, .returned⟩
              else readBody max messages := by
            simp [call, hlengths, parseContentLength, hdigits, pyInt, if_neg hlong]
          rw [hcall]
          split_ifs with hmax
          · exact refused_sound (fun h => absurd (hok.mp h).2 (Nat.not_le.mpr hmax)) (Or.inr rfl)
          · exact readBody_sound (hok.mpr ⟨hdigits, Nat.not_lt.mp hmax⟩)
      · have hcall : call max headers messages = ⟨invalidContentLength, none, .returned⟩ := by
          simp [call, hlengths, parseContentLength, hdigits]
        rw [hcall]
        exact ⟨fun _ h => absurd h hdigits,
          fun _ => refused_sound (fun h => hdigits (hok.mp h).1) (Or.inl rfl)⟩

/-- One header with 4301 digits. -/
def longHeader : List (Bytes × Bytes) := [(contentLengthName, List.replicate 4301 48)]

/-- A header that no conversion accepts takes the request away from the application. -/
theorem longHeader_unsound : ¬ Sound 1048576 longHeader [] (call 1048576 longHeader []) := by
  have hname : contentLengthName.map lowerByte = contentLengthName := by decide +kernel
  have hlengths : contentLengths longHeader = [List.replicate 4301 48] := by
    simp only [contentLengths, longHeader, List.filter_cons, hname, decide_true, if_true,
      List.filter_nil, List.map_cons, List.map_nil]
  have hdigits : IsDigits (List.replicate 4301 48) := by
    refine ⟨List.ne_nil_of_length_pos (by rw [List.length_replicate]; decide), fun b hb => ?_⟩
    rw [List.eq_of_mem_replicate hb]
    decide
  intro h
  refine h.quiet ?_
  rw [call_raised hlengths hdigits (by rw [List.length_replicate]; decide)]

end RequestPayload

end LocalAgent.Runtime
