import LocalAgent.Lib.Op
import LocalAgent.Lib.Sha256
import LocalAgent.Runtime.ToolContract

/-!
# LocalAgent.Runtime.ToolOutputText — `build_tool_output` of `core/runtime/tool_contract.py`

The text of an adapter as the output of a tool; how `json.loads` ends is a parameter.

* `cut_spec`: the loop that drops bytes ends at the longest prefix of whole characters.
* `typed_output_iff`: when the result is an output as described, or a typed error.
-/

namespace LocalAgent.Runtime

/-- A code point of a Python string: a character or a lone surrogate. -/
abbrev CodePoint := Char ⊕ Fin 2048

/-- How `json.loads` ends; `invalid` is a `TypeError` or `ValueError`. -/
inductive Loaded where
  | value | invalid | recursionError
  deriving DecidableEq

structure ToolOutputValidationError where
  category : ToolErrorCategory
  safeErrorCode : String
  safeMessage : String
  contentType : String
  originalSizeBytes : ℕ
  digest : String

inductive BuildError where
  | validation (error : ToolOutputValidationError)
  | valueError (message : String)
  | unicodeEncodeError | recursionError

namespace ToolOutput

/-- The text of a content without lone surrogates. -/
def characters (content : List CodePoint) : String :=
  String.ofList (content.filterMap Sum.getLeft?)

/-- `content.encode("utf-8")`, as the text that is encoded. -/
def encode (content : List CodePoint) : Except BuildError String :=
  if content.all Sum.isLeft then .ok (characters content) else .error .unicodeEncodeError

/-- `normalized_type`; a comparison with ASCII words only needs the lower case of ASCII. -/
def normalizedType (contentType : String) : String :=
  (Text.strip (String.ofList (contentType.toList.takeWhile (· ≠ ';')))).toLower

def isJson (contentType : String) : Bool :=
  normalizedType contentType = "application/json" ∨
    "+json".toList <:+ (normalizedType contentType).toList

/-- The loop on `returned`, the first `n` bytes of `encoded`. -/
def cut (encoded : ByteArray) : ℕ → String × ℕ
  | 0 => ("", 0)
  | n + 1 =>
    match String.fromUTF8? (encoded.extract 0 (n + 1)) with
    | some safeContent => (safeContent, n + 1)
    | none => cut encoded n

theorem hexdigest_text (text : String) : Text.isBlank (Sha256.hexdigest text) = false := by
  have h := Sha256.hexdigest_isHexDigest text
  simp only [Sha256.isHexDigest, Bool.and_eq_true, beq_iff_eq, List.all_eq_true] at h
  obtain ⟨hlength, hhex⟩ := h
  rw [Text.isBlank, Bool.eq_false_iff, Ne, List.all_eq_true]
  intro hspace
  obtain ⟨c, hc⟩ := List.exists_mem_of_length_pos (l := (Sha256.hexdigest text).toList)
    (by rw [String.length_toList, hlength]; decide)
  have hnone : "0123456789abcdef".toList.all (!Text.isSpace ·) = true := by decide
  have hc' := List.all_eq_true.mp hnone c (of_decide_eq_true (hhex c hc))
  rw [hspace c hc] at hc'
  cases hc'

def buildToolOutput (loads : String → Loaded) (content : List CodePoint) (contentType : String)
    (maxOutputBytes : ℤ) : Except BuildError ToolOutput := do
  raiseIf (maxOutputBytes ≤ 0) (.valueError "max_output_bytes 必须是正整数")
  if htext : Text.isBlank contentType = false then
    let text ← encode content
    let size := text.utf8ByteSize
    let digest := Sha256.hexdigest text
    let error category code message : BuildError :=
      .validation ⟨category, code, message, contentType, size, digest⟩
    let output content (returned : ℕ) truncated : ToolOutput :=
      ⟨contentType, content, size, returned, truncated, digest, htext,
        ⟨Int.natCast_nonneg _, Int.natCast_nonneg _⟩, hexdigest_text text⟩
    if isJson contentType then
      match loads text with
      | .recursionError => .error .recursionError
      | .invalid =>
        .error (error .outputInvalid "TOOL_OUTPUT_INVALID_JSON" "Tool 返回了无效 JSON。")
      | .value =>
        if maxOutputBytes < size then
          .error (error .outputTooLarge "TOOL_OUTPUT_TOO_LARGE" "结构化 Tool Output 超过允许大小。")
        else .ok (output text size false)
    else if normalizedType contentType ≠ "text/plain" then
      .error (error .outputInvalid "TOOL_OUTPUT_CONTENT_TYPE_UNSUPPORTED"
        "该 Tool Output 类型不能直接进入模型 Context。")
    else
      let (safeContent, returned) := cut text.toUTF8 (min maxOutputBytes.toNat size)
      .ok (output safeContent returned (returned < size))
  else .error (.valueError "content_type 必须是非空字符串")

/-! ## The cut -/

/-- The longest prefix of a text in whole characters that has at most `bytes` bytes. -/
def IsCut (text : String) (bytes : ℤ) (s : String) : Prop :=
  (∃ rest, text = s ++ rest) ∧ s.utf8ByteSize ≤ bytes ∧
    ∀ s' rest, text = s' ++ rest → s'.utf8ByteSize ≤ bytes → s'.utf8ByteSize ≤ s.utf8ByteSize

/-- A prefix of the bytes is a text exactly when it ends between two characters. -/
theorem fromUTF8?_extract {text s : String} {n : ℕ} (hn : n ≤ text.utf8ByteSize) :
    String.fromUTF8? (text.toUTF8.extract 0 n) = some s ↔
      s.utf8ByteSize = n ∧ ∃ rest, text = s ++ rest := by
  have hleft : ∀ s rest : String, (s ++ rest).toUTF8.extract 0 s.utf8ByteSize = s.toUTF8 :=
    fun s rest => by
      show (s ++ rest).toByteArray.extract 0 _ = s.toByteArray
      rw [String.toByteArray_append, ← String.size_toByteArray,
        ByteArray.extract_append_eq_left rfl]
  unfold String.fromUTF8?
  constructor
  · intro h
    split_ifs at h with hvalid
    obtain ⟨s', rest, rfl, hsize⟩ := String.Pos.Raw.isValid_iff_exists_append.mp
      (String.Pos.Raw.isValid_iff_isValidUTF8_extract_zero.mpr
        ⟨String.Pos.Raw.le_iff.mpr hn, hvalid⟩)
    obtain rfl : n = s'.utf8ByteSize := congrArg String.Pos.Raw.byteIdx hsize
    obtain rfl : s' = s := String.toByteArray_inj.mp
      ((hleft s' rest).symm.trans (congrArg String.toByteArray (Option.some.inj h)))
    exact ⟨rfl, rest, rfl⟩
  · rintro ⟨rfl, rest, rfl⟩
    rw [dif_pos (by rw [hleft]; exact s.isValidUTF8)]
    exact congrArg some (String.toByteArray_inj.mp (hleft s rest))

/-- The cut is the longest prefix that is a text. -/
theorem cut_spec (text : String) {n : ℕ} (hn : n ≤ text.utf8ByteSize) :
    (cut text.toUTF8 n).2 = (cut text.toUTF8 n).1.utf8ByteSize ∧
      IsCut text n (cut text.toUTF8 n).1 := by
  induction n with
  | zero =>
    exact ⟨rfl, ⟨text, String.empty_append.symm⟩, le_rfl, fun _ _ _ h => by exact_mod_cast h⟩
  | succ n ih =>
    rw [cut]
    split
    · rename_i s hs
      obtain ⟨hsize, hstart⟩ := (fromUTF8?_extract hn).mp hs
      refine ⟨hsize.symm, hstart, by simp [hsize], fun s' rest _ h => ?_⟩
      rw [hsize]
      exact_mod_cast h
    · rename_i hnone
      obtain ⟨hsize, hstart, hle, hlongest⟩ := ih (Nat.le_of_succ_le hn)
      refine ⟨hsize, hstart, hle.trans (by omega), fun s' rest htext h => ?_⟩
      have hne : s'.utf8ByteSize ≠ n + 1 := fun heq => by
        rw [(fromUTF8?_extract hn).mpr ⟨heq, rest, htext⟩] at hnone
        cases hnone
      exact hlongest s' rest htext (by omega)

theorem shorter_iff {text s : String} (h : ∃ rest, text = s ++ rest) :
    s.utf8ByteSize < text.utf8ByteSize ↔ s ≠ text := by
  obtain ⟨rest, rfl⟩ := h
  rw [ne_comm, Ne, String.append_eq_left_iff, String.utf8ByteSize_append,
    Nat.lt_add_right_iff_pos, Nat.pos_iff_ne_zero, Ne, String.utf8ByteSize_eq_zero_iff]

/-! ## Outputs -/

section Outputs

variable (loads : String → Loaded) (content : List CodePoint) (contentType : String)
  (maxOutputBytes : ℤ)

/-- What the output of a text is. -/
structure Describes (text : String) (output : ToolOutput) : Prop where
  digest : output.digest = Sha256.hexdigest text
  originalSize : output.originalSizeBytes = text.utf8ByteSize
  json : isJson contentType = true →
    output.content = text ∧ loads text = .value ∧ text.utf8ByteSize ≤ maxOutputBytes
  plain : normalizedType contentType = "text/plain" →
    IsCut text maxOutputBytes output.content ∧
    output.returnedSizeBytes = output.content.utf8ByteSize ∧
    (output.truncated = true ↔ output.content ≠ text)

def Typed : Prop :=
  match buildToolOutput loads content contentType maxOutputBytes with
  | .ok output => ∃ text, encode content = .ok text ∧
      Describes loads contentType maxOutputBytes text output
  | .error error => ∃ e, error = .validation e

/-- **Typed outputs.**  The result is a described output or a typed error exactly when the content
type is not blank, the content has no lone surrogate, and `json.loads` does not go too deep. -/
theorem typed_output_iff (hmax : 0 < maxOutputBytes) :
    Typed loads content contentType maxOutputBytes ↔
      Text.isBlank contentType = false ∧ content.all Sum.isLeft = true ∧
        (isJson contentType = true → loads (characters content) ≠ .recursionError) := by
  unfold Typed buildToolOutput
  rw [raiseIf, if_neg hmax.not_ge, ok_bind]
  by_cases htext : Text.isBlank contentType = false
  swap
  · rw [dif_neg htext]
    exact iff_of_false (by rintro ⟨_, ⟨⟩⟩) fun h => htext h.1
  by_cases hall : content.all Sum.isLeft = true
  swap
  · rw [dif_pos htext, encode, if_neg hall]
    exact iff_of_false (by rintro ⟨_, ⟨⟩⟩) fun h => hall h.2.1
  have hencode : encode content = .ok (characters content) := if_pos hall
  rw [dif_pos htext, hencode, ok_bind]
  dsimp only
  cases hjson : isJson contentType with
  | true =>
    have hplain : normalizedType contentType ≠ "text/plain" := fun h => by
      rw [isJson, h] at hjson
      exact absurd hjson (by decide)
    cases hloads : loads (characters content) with
    | recursionError => exact iff_of_false (by rintro ⟨_, ⟨⟩⟩) fun h => h.2.2 rfl rfl
    | invalid => exact iff_of_true ⟨_, rfl⟩ ⟨htext, hall, by rintro - ⟨⟩⟩
    | value =>
      refine iff_of_true ?_ ⟨htext, hall, by rintro - ⟨⟩⟩
      rw [if_pos rfl]
      dsimp only
      split_ifs with hlarge
      · exact ⟨_, rfl⟩
      · exact ⟨_, rfl, rfl, rfl, fun _ => ⟨rfl, hloads, not_lt.mp hlarge⟩, fun h => absurd h hplain⟩
  | false =>
    refine iff_of_true ?_ ⟨htext, hall, by rintro ⟨⟩⟩
    rw [if_neg Bool.false_ne_true]
    split_ifs with hother
    · exact ⟨_, rfl⟩
    · obtain ⟨hsize, hstart, hle, hlongest⟩ := cut_spec (characters content)
        (min_le_right maxOutputBytes.toNat (characters content).utf8ByteSize)
      refine ⟨_, rfl, rfl, rfl, fun h => absurd (hjson.symm.trans h) Bool.false_ne_true, fun _ =>
        ⟨⟨hstart, by dsimp only; omega, fun s' rest heq h => ?_⟩, congrArg Nat.cast hsize, ?_⟩⟩
      · refine hlongest s' rest heq ?_
        have := congrArg String.utf8ByteSize heq
        rw [String.utf8ByteSize_append] at this
        omega
      · rw [decide_eq_true_eq, hsize]
        exact shorter_iff hstart

theorem typed_output_iff_cut : Typed (fun _ => .invalid) [.inl '甲', .inl '乙'] "text/plain" 4 :=
  (typed_output_iff _ _ _ _ (by decide)).mpr ⟨by decide, rfl, by rintro - ⟨⟩⟩

/-- One lone surrogate. -/
theorem lone_surrogate_untyped : ¬ Typed (fun _ => .value) [.inr 0] "text/plain" 1 := by
  rintro ⟨_, h⟩
  cases h

end Outputs

end ToolOutput

end LocalAgent.Runtime
