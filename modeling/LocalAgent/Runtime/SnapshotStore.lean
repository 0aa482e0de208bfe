import LocalAgent.Lib.Dict
import LocalAgent.Lib.Op
import LocalAgent.Lib.Text
import LocalAgent.Lib.Trace
import Mathlib.Data.List.MinMax

/-!
# LocalAgent.Runtime.SnapshotStore — `core/runtime/snapshot_store.py`

The two append-only stores for verified snapshots, side by side: a dictionary in memory and a table
of JSON rows behind SQL queries.

* `InMemorySnapshotStore`, `PostgresSnapshotStore`: `save`, `get`, `latest`, `list_for_run`, `close`.
* `Mirrors`: the table holds the rows of the dictionary's snapshots.
* `answers_agree`: both stores answer alike, as long as snapshots of one run taken in the same instant
  are asked for in an order on which the two agree (`Alike`).
-/

namespace LocalAgent.Runtime

/-! ## Snapshots -/

inductive SnapshotSaveStatus where
  | saved | duplicate
  deriving DecidableEq

inductive SnapshotErrorCode where
  | idConflict | corrupted | schemaUnsupported | storeFailed
  deriving DecidableEq

inductive SnapshotFault where
  /-- `SnapshotStoreError` -/
  | store (code : SnapshotErrorCode)
  /-- `ValueError` -/
  | value (message : String)
  /-- the `PersistenceError` of a statement the database refuses -/
  | database
  deriving DecidableEq

def isDatabaseText (text : String) : Bool := Char.ofNat 0 ∉ text.toList

/-- A token of `_require_safe_token`, as far as the table cares. -/
structure SafeToken (text : String) : Prop where
  length : text.length ≤ 128
  text : isDatabaseText text = true

/-- What the stores use of `RunSnapshot` and `snapshot_serialization.py`.  Times are microseconds. -/
structure SnapshotContract (S : Type) where
  snapshotSchemaVersion : S → ℕ
  snapshotId : S → String
  runId : S → String
  createdAt : S → ℤ
  payloadDigest : S → String
  /-- `verify_digest` returns -/
  verifyDigest : S → Bool
  snapshotToJson : S → String
  snapshotFromJson : String → Except SnapshotErrorCode S
  /-- `__post_init__` -/
  version_pos : ∀ s, 0 < snapshotSchemaVersion s
  safe_id : ∀ s, SafeToken (snapshotId s)
  safe_run : ∀ s, SafeToken (runId s)
  digest_length : ∀ s, (payloadDigest s).length = 64
  digest_text : ∀ s, isDatabaseText (payloadDigest s) = true
  /-- `json.dumps` escapes control characters -/
  json_text : ∀ s, isDatabaseText (snapshotToJson s) = true
  /-- a verified snapshot is read back -/
  roundTrip : ∀ s, verifyDigest s = true → snapshotFromJson (snapshotToJson s) = .ok s

/-- The order of texts in the database. -/
structure Collation where
  le : String → String → Bool
  total : ∀ a b, le a b = true ∨ le b a = true
  trans : ∀ a b c, le a b = true → le b c = true → le a c = true
  antisymm : ∀ a b, le a b = true → le b a = true → a = b

/-- `MAX_SNAPSHOT_LIST_LIMIT`. -/
def maxSnapshotListLimit : ℤ := 1000

/-- `_validate_id`. -/
def validateSnapshotId (value fieldName : String) : Except SnapshotFault Unit :=
  raiseIf (Text.isBlank value) (.value (fieldName ++ " must be a non-empty string"))

/-- `_validate_limit`. -/
def validateSnapshotLimit (limit : ℤ) : Except SnapshotFault Unit :=
  raiseIf (limit < 1 ∨ maxSnapshotListLimit < limit)
    (.value "limit must be an integer between 1 and 1000")

variable {S : Type} (contract : SnapshotContract S)

def verifyForStore (snapshot : S) : Except SnapshotFault S := do
  raiseIf (contract.verifyDigest snapshot = false) (.store .corrupted)
  return snapshot

/-- `_ensure_open`. -/
def ensureStoreOpen (closed : Bool) : Except SnapshotFault Unit :=
  raiseIf (closed = true) (.store .storeFailed)

/-! ## In memory -/

structure InMemorySnapshotStore (S : Type) where
  records : Dict String S
  closed : Bool

namespace InMemorySnapshotStore

variable (store : InMemorySnapshotStore S)

def save (snapshot : S) : Except SnapshotFault (SnapshotSaveStatus × InMemorySnapshotStore S) := do
  let verified ← verifyForStore contract snapshot
  ensureStoreOpen store.closed
  match store.records.get? (contract.snapshotId verified) with
  | some existing =>
    let _ ← verifyForStore contract existing
    if contract.payloadDigest existing = contract.payloadDigest verified then
      return (.duplicate, store)
    else throw (.store .idConflict)
  | none =>
    return (.saved,
      { store with records := store.records.set (contract.snapshotId verified) verified })

def get (snapshotId : String) : Except SnapshotFault (Option S) := do
  validateSnapshotId snapshotId "snapshot_id"
  ensureStoreOpen store.closed
  match store.records.get? snapshotId with
  | some value => return some (← verifyForStore contract value)
  | none => return none

/-- The sort key `(created_at, snapshot_id)`, reversed. -/
def before (a b : S) : Bool :=
  contract.createdAt b < contract.createdAt a ∨
    contract.createdAt a = contract.createdAt b ∧ contract.snapshotId b ≤ contract.snapshotId a

/-- The snapshots of a run in the order of the store. -/
def ofRun (runId : String) : List S :=
  (store.records.values.filter (contract.runId · = runId)).insertionSort
    (before contract · · = true)

def listForRun (runId : String) (limit : ℤ) : Except SnapshotFault (List S) := do
  validateSnapshotId runId "run_id"
  validateSnapshotLimit limit
  ensureStoreOpen store.closed
  ((store.ofRun contract runId).take limit.toNat).mapM (verifyForStore contract)

def latest (runId : String) : Except SnapshotFault (Option S) := do
  let values ← store.listForRun contract runId maxSnapshotListLimit
  return values.head?

end InMemorySnapshotStore

/-! ## In PostgreSQL -/

/-- `runtime_snapshots`. -/
structure SnapshotRow where
  snapshotSchemaVersion : ℕ
  snapshotId : String
  runId : String
  createdAt : ℤ
  payloadJson : String
  payloadDigest : String
  deriving DecidableEq

structure PostgresSnapshotStore where
  /-- by primary key -/
  rows : Dict String SnapshotRow
  closed : Bool

/-- The row `save` inserts. -/
def snapshotRow (snapshot : S) : SnapshotRow where
  snapshotSchemaVersion := contract.snapshotSchemaVersion snapshot
  snapshotId := contract.snapshotId snapshot
  runId := contract.runId snapshot
  createdAt := contract.createdAt snapshot
  payloadJson := contract.snapshotToJson snapshot
  payloadDigest := contract.payloadDigest snapshot

def snapshotRowToValue (row : SnapshotRow) : Except SnapshotFault S := do
  let snapshot ← (contract.snapshotFromJson row.payloadJson).mapError .store
  raiseIf (contract.snapshotSchemaVersion snapshot ≠ row.snapshotSchemaVersion ∨
      contract.snapshotId snapshot ≠ row.snapshotId ∨ contract.runId snapshot ≠ row.runId ∨
      contract.createdAt snapshot ≠ row.createdAt ∨
      contract.payloadDigest snapshot ≠ row.payloadDigest) (.store .corrupted)
  return snapshot

def textParameter (text : String) : Except SnapshotFault Unit :=
  raiseIf (isDatabaseText text = false) .database

/-- `insert_snapshot_row`, with the checks of the columns. -/
def insertSnapshotRow (rows : Dict String SnapshotRow) (row : SnapshotRow) :
    Except SnapshotFault (Dict String SnapshotRow) := do
  textParameter row.snapshotId
  textParameter row.runId
  textParameter row.payloadJson
  textParameter row.payloadDigest
  raiseIf (255 < row.snapshotId.length ∨ 255 < row.runId.length ∨ 64 < row.payloadDigest.length ∨
    row.snapshotSchemaVersion = 0) .database
  return rows.set row.snapshotId row

namespace PostgresSnapshotStore

variable (collation : Collation) (store : PostgresSnapshotStore)

/-- `select_snapshot_by_id`. -/
def selectById (snapshotId : String) : Except SnapshotFault (Option SnapshotRow) := do
  textParameter snapshotId
  return store.rows.get? snapshotId

/-- `ORDER BY created_at DESC, snapshot_id ASC`. -/
def rowBefore (a b : SnapshotRow) : Bool :=
  b.createdAt < a.createdAt ∨ a.createdAt = b.createdAt ∧ collation.le a.snapshotId b.snapshotId

/-- `select_snapshots_for_run`. -/
def selectForRun (runId : String) (limit : ℕ) : Except SnapshotFault (List SnapshotRow) := do
  textParameter runId
  return ((store.rows.values.filter (·.runId = runId)).insertionSort
    (rowBefore collation · · = true)).take limit

def save (snapshot : S) : Except SnapshotFault (SnapshotSaveStatus × PostgresSnapshotStore) := do
  let verified ← verifyForStore contract snapshot
  ensureStoreOpen store.closed
  match ← store.selectById (contract.snapshotId verified) with
  | some existingRow =>
    let existing ← snapshotRowToValue contract existingRow
    if contract.payloadDigest existing = contract.payloadDigest verified then
      return (.duplicate, store)
    else throw (.store .idConflict)
  | none =>
    let rows ← insertSnapshotRow store.rows (snapshotRow contract verified)
    return (.saved, { store with rows := rows })

def get (snapshotId : String) : Except SnapshotFault (Option S) := do
  validateSnapshotId snapshotId "snapshot_id"
  ensureStoreOpen store.closed
  match ← store.selectById snapshotId with
  | some row => return some (← snapshotRowToValue contract row)
  | none => return none

def listForRun (runId : String) (limit : ℤ) : Except SnapshotFault (List S) := do
  validateSnapshotId runId "run_id"
  validateSnapshotLimit limit
  ensureStoreOpen store.closed
  (← store.selectForRun collation runId limit.toNat).mapM (snapshotRowToValue contract)

/-- `latest`: `select_latest_snapshot` is the same query with `LIMIT 1`. -/
def latest (runId : String) : Except SnapshotFault (Option S) := do
  validateSnapshotId runId "run_id"
  ensureStoreOpen store.closed
  match (← store.selectForRun collation runId 1).head? with
  | some row => return some (← snapshotRowToValue contract row)
  | none => return none

end PostgresSnapshotStore

/-! ## Calls -/

inductive SnapshotCall (S : Type) where
  | save (snapshot : S)
  | get (snapshotId : String)
  | latest (runId : String)
  | listForRun (runId : String) (limit : ℤ)
  | close

/-- What a caller sees. -/
inductive SnapshotAnswer (S : Type) where
  | status (status : SnapshotSaveStatus)
  | found (value : Option S)
  | listed (values : List S)
  | closed
  | raised (fault : SnapshotFault)
  deriving DecidableEq

def SnapshotAnswer.ofRead {α : Type} (answer : α → SnapshotAnswer S) :
    Except SnapshotFault α → SnapshotAnswer S
  | .ok a => answer a
  | .error fault => .raised fault

def SnapshotAnswer.ofSave {σ : Type} (store : σ) :
    Except SnapshotFault (SnapshotSaveStatus × σ) → σ × SnapshotAnswer S
  | .ok (written, store') => (store', .status written)
  | .error fault => (store, .raised fault)

namespace InMemorySnapshotStore

def new : InMemorySnapshotStore S := ⟨Dict.empty, false⟩

def answer (store : InMemorySnapshotStore S) :
    SnapshotCall S → InMemorySnapshotStore S × SnapshotAnswer S
  | .save snapshot => SnapshotAnswer.ofSave store (store.save contract snapshot)
  | .get snapshotId => (store, .ofRead .found (store.get contract snapshotId))
  | .latest runId => (store, .ofRead .found (store.latest contract runId))
  | .listForRun runId limit => (store, .ofRead .listed (store.listForRun contract runId limit))
  | .close => ({ store with closed := true }, .closed)

def answers (store : InMemorySnapshotStore S) : List (SnapshotCall S) → List (SnapshotAnswer S)
  | [] => []
  | call :: calls => (store.answer contract call).2 :: (store.answer contract call).1.answers calls

end InMemorySnapshotStore

namespace PostgresSnapshotStore

variable (collation : Collation)

def new : PostgresSnapshotStore := ⟨Dict.empty, false⟩

def answer (store : PostgresSnapshotStore) :
    SnapshotCall S → PostgresSnapshotStore × SnapshotAnswer S
  | .save snapshot => SnapshotAnswer.ofSave store (store.save contract snapshot)
  | .get snapshotId => (store, .ofRead .found (store.get contract snapshotId))
  | .latest runId => (store, .ofRead .found (store.latest contract collation runId))
  | .listForRun runId limit =>
    (store, .ofRead .listed (store.listForRun contract collation runId limit))
  | .close => ({ store with closed := true }, .closed)

def answers (store : PostgresSnapshotStore) : List (SnapshotCall S) → List (SnapshotAnswer S)
  | [] => []
  | call :: calls => (store.answer contract collation call).2 ::
      (store.answer contract collation call).1.answers calls

end PostgresSnapshotStore

/-! ## The table mirrors the dictionary -/

variable {contract} {snapshot : S} {α : Type} {r : α → α → Prop} {limit : ℕ}

theorem verifyForStore_ok (h : contract.verifyDigest snapshot = true) :
    verifyForStore contract snapshot = .ok snapshot := by
  simp [verifyForStore, raiseIf, h, pure, Except.pure]

theorem textParameter_ok {text : String} (h : isDatabaseText text = true) :
    textParameter text = .ok () := by
  simp [textParameter, raiseIf, h]

theorem snapshotRowToValue_row (h : contract.verifyDigest snapshot = true) :
    snapshotRowToValue contract (snapshotRow contract snapshot) = .ok snapshot := by
  simp [snapshotRowToValue, snapshotRow, contract.roundTrip snapshot h, Except.mapError, raiseIf,
    pure, Except.pure]

/-- The insertion writes the row of the snapshot. -/
theorem insertSnapshotRow_row {rows : Dict String SnapshotRow} :
    insertSnapshotRow rows (snapshotRow contract snapshot) =
      .ok (rows.set (contract.snapshotId snapshot) (snapshotRow contract snapshot)) := by
  have hid := contract.safe_id snapshot
  have hrun := contract.safe_run snapshot
  have hlengths : ¬ (255 < (contract.snapshotId snapshot).length ∨
      255 < (contract.runId snapshot).length ∨ 64 < (contract.payloadDigest snapshot).length ∨
      contract.snapshotSchemaVersion snapshot = 0) := by
    have hidLength := hid.length
    have hrunLength := hrun.length
    have hdigest := contract.digest_length snapshot
    have hversion := contract.version_pos snapshot
    omega
  simp only [insertSnapshotRow, snapshotRow, textParameter_ok hid.text, textParameter_ok hrun.text,
    textParameter_ok (contract.json_text snapshot), textParameter_ok (contract.digest_text snapshot),
    ok_bind, raiseIf, hlengths, if_false]
  rfl

theorem set_mapValues {κ ν ω : Type} [DecidableEq κ] (d : Dict κ ν) (f : ν → ω) (k : κ) (v : ν) :
    (d.mapValues f).set k (f v) = (d.set k v).mapValues f := by
  refine Dict.ext_entries ?_
  obtain ⟨l, hl⟩ := d
  show Dict.setEntries k (f v) (l.map fun e => (e.1, f e.2)) =
    (Dict.setEntries k v l).map fun e => (e.1, f e.2)
  clear hl
  induction l with
  | nil => rfl
  | cons e _ ih =>
    simp only [List.map_cons, Dict.setEntries]
    by_cases he : e.1 = k
    · simp [he]
    · simp [he, ih]

variable {a : α} {after l : List α}

/-- An element that precedes all of the rest is put before it. -/
theorem orderedInsert_append_of_rel [DecidableRel r] (hafter : ∀ b ∈ after, r a b) :
    ∀ before : List α,
      (before ++ after).orderedInsert r a = before.orderedInsert r a ++ after
  | [] => by
    cases after with
    | nil => rfl
    | cons b => simp [hafter b List.mem_cons_self]
  | b :: before => by
    by_cases hab : r a b
    · simp [hab]
    · simp [hab, orderedInsert_append_of_rel hafter before]

theorem orderedInsert_append_of_not_rel [DecidableRel r] :
    ∀ {before : List α}, (∀ b ∈ before, ¬ r a b) →
      (before ++ after).orderedInsert r a = before ++ after.orderedInsert r a
  | [], _ => rfl
  | b :: before, h => by
    have hb := h b List.mem_cons_self
    simp [hb, orderedInsert_append_of_not_rel fun c hc => h c (List.mem_cons_of_mem b hc)]

/-- Sorting splits where every early element precedes every late one. -/
theorem insertionSort_split [DecidableRel r] {early : α → Bool} :
    ∀ {l : List α},
      (∀ a ∈ l, ∀ b ∈ l, early a = true → early b = false → r a b ∧ ¬ r b a) →
      l.insertionSort r =
        (l.filter early).insertionSort r ++ (l.filter (! early ·)).insertionSort r
  | [], _ => rfl
  | a :: l, h => by
    have ih := insertionSort_split (l := l) fun b hb c hc =>
      h b (List.mem_cons_of_mem a hb) c (List.mem_cons_of_mem a hc)
    rw [List.insertionSort_cons, ih]
    cases ha : early a with
    | true =>
      have hafter : ∀ b ∈ (l.filter (! early ·)).insertionSort r, r a b := by
        intro b hb
        have hlate := List.mem_filter.mp ((List.mem_insertionSort r).mp hb)
        exact (h a List.mem_cons_self b (List.mem_cons_of_mem a hlate.1) ha
          (by simpa using hlate.2)).1
      simp [ha, orderedInsert_append_of_rel hafter]
    | false =>
      have hbefore : ∀ b ∈ (l.filter early).insertionSort r, ¬ r a b := by
        intro b hb
        have hearly := List.mem_filter.mp ((List.mem_insertionSort r).mp hb)
        exact (h b (List.mem_cons_of_mem a hearly.1) a List.mem_cons_self hearly.2 ha).2
      simp [ha, orderedInsert_append_of_not_rel hbefore]

/-- The first `limit` elements of a sorted list are among those with fewer than `limit` later ones. -/
theorem take_insertionSort_split [DecidableRel r] (time : α → ℤ)
    (h : ∀ a ∈ l, ∀ b ∈ l, time b < time a → r a b ∧ ¬ r b a) :
    (l.insertionSort r).take limit =
      ((l.filter fun a => l.countP (time a < time ·) < limit).insertionSort r).take limit := by
  have hseparated : ∀ a ∈ l, ∀ b ∈ l,
      (decide (l.countP (time a < time ·) < limit)) = true →
      (decide (l.countP (time b < time ·) < limit)) = false → r a b ∧ ¬ r b a := by
    intro a ha b hb hearly hlate
    have hfew := of_decide_eq_true hearly
    have hmany := of_decide_eq_false hlate
    refine h a ha b hb (lt_of_not_ge fun hle => hmany (lt_of_le_of_lt ?_ hfew))
    refine List.countP_mono_left fun c _ hc => ?_
    exact decide_eq_true (lt_of_le_of_lt hle (of_decide_eq_true hc))
  rw [insertionSort_split hseparated]
  cases hlatest : (l.filter fun a => ! decide (l.countP (time a < time ·) < limit)).argmax time with
  | none =>
    rw [List.argmax_eq_none.mp hlatest]
    simp
  | some b =>
    -- everything later than the latest of the late elements is early
    have hmem := List.mem_filter.mp (List.argmax_mem hlatest)
    have hmany : limit ≤ l.countP (time b < time ·) := by simpa using hmem.2
    have hlength : limit ≤ (l.filter fun a => l.countP (time a < time ·) < limit).length := by
      refine hmany.trans ?_
      rw [← List.countP_eq_length_filter]
      refine List.countP_mono_left fun c hc hlater => ?_
      by_contra hcl
      have hle := List.le_of_mem_argmax (f := time)
        (List.mem_filter.mpr ⟨hc, by simpa using hcl⟩) hlatest
      exact absurd (of_decide_eq_true hlater) (not_lt.mpr hle)
    rw [List.take_append_of_le_length (by rwa [List.length_insertionSort])]

/-- Two orders that agree on the first times take the same elements. -/
theorem take_insertionSort_congr {r' : α → α → Prop} [DecidableRel r]
    [DecidableRel r'] (time : α → ℤ) (hr : ∀ a ∈ l, ∀ b ∈ l, time b < time a → r a b ∧ ¬ r b a)
    (hr' : ∀ a ∈ l, ∀ b ∈ l, time b < time a → r' a b ∧ ¬ r' b a)
    (hagree : ∀ a ∈ l, ∀ b ∈ l, l.countP (time a < time ·) < limit → (r a b ↔ r' a b)) :
    (l.insertionSort r).take limit = (l.insertionSort r').take limit := by
  rw [take_insertionSort_split time hr, take_insertionSort_split time hr']
  refine congrArg (List.take limit) ?_
  have hmap := List.map_insertionSort r r' id
    (l.filter fun a => l.countP (time a < time ·) < limit) fun a ha b hb => by
      obtain ⟨ha, hfew⟩ := List.mem_filter.mp ha
      exact hagree a ha b (List.mem_filter.mp hb).1 (of_decide_eq_true hfew)
  simpa only [List.map_id] using hmap

/-- The table holds the rows of the dictionary's verified snapshots. -/
structure Mirrors (contract : SnapshotContract S) (memory : InMemorySnapshotStore S)
    (postgres : PostgresSnapshotStore) : Prop where
  closed : postgres.closed = memory.closed
  rows : postgres.rows = memory.records.mapValues (snapshotRow contract)
  verified : ∀ id snapshot, memory.records.get? id = some snapshot →
    contract.verifyDigest snapshot = true

namespace Mirrors

variable {memory : InMemorySnapshotStore S} {postgres : PostgresSnapshotStore}

theorem new : Mirrors contract InMemorySnapshotStore.new PostgresSnapshotStore.new :=
  ⟨rfl, rfl, nofun⟩

theorem get?_rows (h : Mirrors contract memory postgres) (id : String) :
    postgres.rows.get? id = (memory.records.get? id).map (snapshotRow contract) := by
  rw [h.rows, Dict.get?_mapValues]

/-- The stores answer a call alike and still mirror each other. -/
def Agree (contract : SnapshotContract S) (collation : Collation)
    (memory : InMemorySnapshotStore S) (postgres : PostgresSnapshotStore)
    (call : SnapshotCall S) : Prop :=
  (memory.answer contract call).2 = (postgres.answer contract collation call).2 ∧
    Mirrors contract (memory.answer contract call).1 (postgres.answer contract collation call).1

variable {collation : Collation}

/-- A save is answered alike and leaves the stores mirrored. -/
theorem save (h : Mirrors contract memory postgres) (snapshot : S) :
    Agree contract collation memory postgres (.save snapshot) := by
  have hraise : ∀ fault, memory.save contract snapshot = .error fault →
      postgres.save contract snapshot = .error fault →
      Agree contract collation memory postgres (.save snapshot) := by
    intro _ hmemory hpostgres
    simp only [Agree, InMemorySnapshotStore.answer, PostgresSnapshotStore.answer, hmemory,
      hpostgres, SnapshotAnswer.ofSave, true_and]
    exact h
  by_cases hverified : contract.verifyDigest snapshot = true
  · by_cases hclosed : memory.closed = true
    · refine hraise (.store .storeFailed) ?_ ?_
      · simp [InMemorySnapshotStore.save, verifyForStore_ok hverified, ensureStoreOpen, raiseIf,
          hclosed]
        rfl
      · simp [PostgresSnapshotStore.save, verifyForStore_ok hverified, ensureStoreOpen, raiseIf,
          h.closed, hclosed]
        rfl
    · have hid := contract.safe_id snapshot
      cases hfound : memory.records.get? (contract.snapshotId snapshot) with
      | none =>
        have hmemory : memory.save contract snapshot = .ok (.saved, { memory with
            records := memory.records.set (contract.snapshotId snapshot) snapshot }) := by
          simp [InMemorySnapshotStore.save, verifyForStore_ok hverified, ensureStoreOpen, raiseIf,
            hclosed, hfound]
          rfl
        have hpostgres : postgres.save contract snapshot = .ok (.saved, { postgres with
            rows := postgres.rows.set (contract.snapshotId snapshot)
              (snapshotRow contract snapshot) }) := by
          simp [PostgresSnapshotStore.save, PostgresSnapshotStore.selectById,
            verifyForStore_ok hverified, ensureStoreOpen, raiseIf, h.closed, hclosed,
            textParameter_ok hid.text, h.get?_rows, hfound, insertSnapshotRow_row, pure, Except.pure]
        refine ⟨by simp [InMemorySnapshotStore.answer, PostgresSnapshotStore.answer, hmemory,
          hpostgres, SnapshotAnswer.ofSave], ?_⟩
        simp only [InMemorySnapshotStore.answer, PostgresSnapshotStore.answer, hmemory, hpostgres,
          SnapshotAnswer.ofSave]
        refine ⟨h.closed, ?_, fun id other hother => ?_⟩
        · rw [h.rows, set_mapValues]
        · rw [Dict.get?_set] at hother
          split_ifs at hother with hsame
          · exact Option.some.inj hother ▸ hverified
          · exact h.verified id other hother
      | some existing =>
        have hexisting := h.verified _ existing hfound
        by_cases hdigest : contract.payloadDigest existing = contract.payloadDigest snapshot
        · have hmemory : memory.save contract snapshot = .ok (.duplicate, memory) := by
            simp [InMemorySnapshotStore.save, verifyForStore_ok hverified, ensureStoreOpen, raiseIf,
              hclosed, hfound, verifyForStore_ok hexisting, hdigest, pure, Except.pure]
          have hpostgres : postgres.save contract snapshot = .ok (.duplicate, postgres) := by
            simp [PostgresSnapshotStore.save, PostgresSnapshotStore.selectById,
              verifyForStore_ok hverified, ensureStoreOpen, raiseIf, h.closed, hclosed,
              textParameter_ok hid.text, h.get?_rows, hfound, snapshotRowToValue_row hexisting,
              hdigest, pure, Except.pure]
          simp only [Agree, InMemorySnapshotStore.answer, PostgresSnapshotStore.answer, hmemory,
            hpostgres, SnapshotAnswer.ofSave, true_and]
          exact h
        · refine hraise (.store .idConflict) ?_ ?_
          · simp [InMemorySnapshotStore.save, verifyForStore_ok hverified, ensureStoreOpen, raiseIf,
              hclosed, hfound, verifyForStore_ok hexisting, hdigest]
            rfl
          · simp [PostgresSnapshotStore.save, PostgresSnapshotStore.selectById,
              verifyForStore_ok hverified, ensureStoreOpen, raiseIf, h.closed, hclosed,
              textParameter_ok hid.text, h.get?_rows, hfound, snapshotRowToValue_row hexisting,
              hdigest, pure, Except.pure]
            rfl
  · have hfalse : contract.verifyDigest snapshot = false := Bool.eq_false_iff.mpr hverified
    refine hraise (.store .corrupted) ?_ ?_
    · simp [InMemorySnapshotStore.save, verifyForStore, raiseIf, hfalse]
      rfl
    · simp [PostgresSnapshotStore.save, verifyForStore, raiseIf, hfalse]
      rfl

/-- A lookup is answered alike. -/
theorem get (h : Mirrors contract memory postgres) {snapshotId : String}
    (halike : memory.closed = false → isDatabaseText snapshotId = true) :
    memory.get contract snapshotId = postgres.get contract snapshotId := by
  simp only [InMemorySnapshotStore.get, PostgresSnapshotStore.get, h.closed]
  cases hblank : validateSnapshotId snapshotId "snapshot_id" with
  | error => rfl
  | ok =>
    cases hopen : ensureStoreOpen memory.closed with
    | error => rfl
    | ok =>
      have hclosed : ¬ memory.closed = true := raiseIf_ok.mp hopen
      simp only [PostgresSnapshotStore.selectById,
        textParameter_ok (halike (Bool.eq_false_iff.mpr hclosed)), h.get?_rows, ok_bind]
      cases hfound : memory.records.get? snapshotId with
      | none => rfl
      | some snapshot =>
        have hverified := h.verified snapshotId snapshot hfound
        simp only [Option.map_some, snapshotRowToValue_row hverified, verifyForStore_ok hverified,
          ok_bind, pure, Except.pure]

/-- How many snapshots of the run are later than `a`. -/
def laterInRun (contract : SnapshotContract S) (memory : InMemorySnapshotStore S) (runId : String)
    (a : S) : ℕ :=
  (memory.records.values.filter (contract.runId · = runId)).countP fun b =>
    contract.createdAt a < contract.createdAt b

/-- The instants of the first `limit` snapshots of a run tell them apart, or the database orders their
ids the other way round. -/
def SameOrder (contract : SnapshotContract S) (collation : Collation)
    (memory : InMemorySnapshotStore S) (runId : String) (limit : ℕ) : Prop :=
  ∀ a ∈ memory.records.values, ∀ b ∈ memory.records.values,
    contract.runId a = runId → contract.runId b = runId →
    contract.createdAt a = contract.createdAt b → contract.snapshotId a ≠ contract.snapshotId b →
    laterInRun contract memory runId a < limit →
      (collation.le (contract.snapshotId a) (contract.snapshotId b) = true ↔
        contract.snapshotId b ≤ contract.snapshotId a)

theorem collation_refl (collation : Collation) (text : String) : collation.le text text = true :=
  (collation.total text text).elim id id

variable {runId : String}

/-- The query returns the rows of the snapshots that the dictionary lists. -/
theorem sortedRows (h : Mirrors contract memory postgres)
    (horder : SameOrder contract collation memory runId limit) :
    ((postgres.rows.values.filter (·.runId = runId)).insertionSort
        (PostgresSnapshotStore.rowBefore collation · · = true)).take limit =
      ((memory.ofRun contract runId).take limit).map (snapshotRow contract) := by
  have hvalues : postgres.rows.values = memory.records.values.map (snapshotRow contract) := by
    simp [h.rows, Dict.values, Dict.mapValues]
  rw [InMemorySnapshotStore.ofRun, hvalues, List.filter_map]
  have hrows : ∀ a b, PostgresSnapshotStore.rowBefore collation (snapshotRow contract a)
      (snapshotRow contract b) = true ↔ contract.createdAt b < contract.createdAt a ∨
        contract.createdAt a = contract.createdAt b ∧
          collation.le (contract.snapshotId a) (contract.snapshotId b) = true :=
    fun a b => decide_eq_true_iff
  have hbefore : ∀ a b, InMemorySnapshotStore.before contract a b = true ↔
      contract.createdAt b < contract.createdAt a ∨ contract.createdAt a = contract.createdAt b ∧
        contract.snapshotId b ≤ contract.snapshotId a :=
    fun a b => decide_eq_true_iff
  rw [← List.map_insertionSort (r := fun a b => PostgresSnapshotStore.rowBefore collation
      (snapshotRow contract a) (snapshotRow contract b) = true) _ _ _ fun a _ b _ => Iff.rfl,
    ← List.map_take]
  refine congrArg (List.map _) (take_insertionSort_congr contract.createdAt ?_ ?_ ?_)
  · intro a _ b _ hlater
    rw [hrows, hrows]
    omega
  · intro a _ b _ _
    rw [hbefore, hbefore]
    omega
  · intro a ha b hb hfew
    obtain ⟨ha, harun⟩ := List.mem_filter.mp ha
    obtain ⟨hb, hbrun⟩ := List.mem_filter.mp hb
    rw [hrows, hbefore]
    by_cases htime : contract.createdAt a = contract.createdAt b
    · have hids : collation.le (contract.snapshotId a) (contract.snapshotId b) = true ↔
          contract.snapshotId b ≤ contract.snapshotId a := by
        by_cases hid : contract.snapshotId a = contract.snapshotId b
        · simp [hid, collation_refl]
        · exact horder a ha b hb (of_decide_eq_true harun) (of_decide_eq_true hbrun) htime hid hfew
      rw [hids]
    · simp [htime]

theorem ofRun_verified (h : Mirrors contract memory postgres)
    (hmem : snapshot ∈ memory.ofRun contract runId) : contract.verifyDigest snapshot = true := by
  have hvalue := (List.mem_filter.mp ((List.mem_insertionSort _).mp hmem)).1
  obtain ⟨id, hid⟩ := Dict.mem_values_iff.mp hvalue
  exact h.verified id snapshot hid

theorem mapM_map_ok {β ε : Type} {f : β → Except ε α} {g : α → β} :
    ∀ {l : List α}, (∀ a ∈ l, f (g a) = .ok a) → (l.map g).mapM f = .ok l
  | [], _ => rfl
  | a :: l, h => by
    rw [List.map_cons, List.mapM_cons, h a List.mem_cons_self,
      mapM_map_ok fun b hb => h b (List.mem_cons_of_mem a hb)]
    rfl

/-- Stored snapshots pass the check on reading. -/
theorem read_ofRun (h : Mirrors contract memory postgres) (runId : String) (limit : ℕ) :
    ((memory.ofRun contract runId).take limit).mapM (verifyForStore contract) =
        .ok ((memory.ofRun contract runId).take limit) ∧
      (((memory.ofRun contract runId).take limit).map (snapshotRow contract)).mapM
        (snapshotRowToValue contract) = .ok ((memory.ofRun contract runId).take limit) := by
  have hverified : ∀ snapshot ∈ (memory.ofRun contract runId).take limit,
      contract.verifyDigest snapshot = true :=
    fun snapshot hmem => h.ofRun_verified (List.mem_of_mem_take hmem)
  constructor
  · have hmap : (((memory.ofRun contract runId).take limit).map id).mapM
        (verifyForStore contract) = .ok ((memory.ofRun contract runId).take limit) :=
      mapM_map_ok fun snapshot hmem => verifyForStore_ok (hverified snapshot hmem)
    rwa [List.map_id] at hmap
  · exact mapM_map_ok fun snapshot hmem => snapshotRowToValue_row (hverified snapshot hmem)

/-- Where the stores answer a read of a run's snapshots alike, once they are open. -/
def AlikeForRun (contract : SnapshotContract S) (collation : Collation)
    (memory : InMemorySnapshotStore S) (runId : String) (limit : ℕ) : Prop :=
  memory.closed = false →
    isDatabaseText runId = true ∧ SameOrder contract collation memory runId limit

/-- The list of a run is answered alike when ties are ordered alike. -/
theorem listForRun (h : Mirrors contract memory postgres) {limit : ℤ}
    (halike : limit ≤ maxSnapshotListLimit →
      AlikeForRun contract collation memory runId limit.toNat) :
    memory.listForRun contract runId limit = postgres.listForRun contract collation runId limit := by
  simp only [InMemorySnapshotStore.listForRun, PostgresSnapshotStore.listForRun, h.closed]
  cases hblank : validateSnapshotId runId "run_id" with
  | error => rfl
  | ok =>
    cases hlimit : validateSnapshotLimit limit with
    | error => rfl
    | ok =>
      cases hopen : ensureStoreOpen memory.closed with
      | error => rfl
      | ok =>
        have hbound : ¬ (limit < 1 ∨ maxSnapshotListLimit < limit) := raiseIf_ok.mp hlimit
        have hclosed : ¬ memory.closed = true := raiseIf_ok.mp hopen
        obtain ⟨htext, horder⟩ := halike (by omega) (Bool.eq_false_iff.mpr hclosed)
        obtain ⟨hmemory, hpostgres⟩ := h.read_ofRun runId limit.toNat
        simp only [PostgresSnapshotStore.selectForRun, textParameter_ok htext,
          h.sortedRows horder, hmemory, ok_bind, pure, Except.pure, hpostgres]

/-- The latest snapshot is answered alike when ties are ordered alike. -/
theorem latest (h : Mirrors contract memory postgres)
    (halike : AlikeForRun contract collation memory runId 1) :
    memory.latest contract runId = postgres.latest contract collation runId := by
  have hlimit : validateSnapshotLimit maxSnapshotListLimit = .ok () := rfl
  simp only [InMemorySnapshotStore.latest, InMemorySnapshotStore.listForRun,
    PostgresSnapshotStore.latest, h.closed, hlimit, ok_bind]
  cases hblank : validateSnapshotId runId "run_id" with
  | error => rfl
  | ok =>
    cases hopen : ensureStoreOpen memory.closed with
    | error => rfl
    | ok =>
      have hclosed : ¬ memory.closed = true := raiseIf_ok.mp hopen
      obtain ⟨htext, horder⟩ := halike (Bool.eq_false_iff.mpr hclosed)
      simp only [PostgresSnapshotStore.selectForRun, textParameter_ok htext,
        h.sortedRows horder, (h.read_ofRun runId maxSnapshotListLimit.toNat).1, ok_bind, pure,
        Except.pure]
      cases hvalues : memory.ofRun contract runId with
      | nil => rfl
      | cons snapshot =>
        have hmem : snapshot ∈ memory.ofRun contract runId := by simp [hvalues]
        simp [snapshotRowToValue_row (h.ofRun_verified hmem), maxSnapshotListLimit]

def Alike (contract : SnapshotContract S) (collation : Collation)
    (memory : InMemorySnapshotStore S) : SnapshotCall S → Prop
  | .get snapshotId => memory.closed = false → isDatabaseText snapshotId = true
  | .latest runId => AlikeForRun contract collation memory runId 1
  | .listForRun runId limit =>
    limit ≤ maxSnapshotListLimit → AlikeForRun contract collation memory runId limit.toNat
  | .save _ | .close => True

/-- Every call is answered alike under its condition. -/
theorem agree (h : Mirrors contract memory postgres) {call : SnapshotCall S}
    (halike : Alike contract collation memory call) :
    Agree contract collation memory postgres call := by
  cases call with
  | save snapshot => exact h.save snapshot
  | get => exact ⟨congrArg (SnapshotAnswer.ofRead .found) (h.get halike), h⟩
  | latest =>
    exact ⟨congrArg (SnapshotAnswer.ofRead .found) (h.latest halike), h⟩
  | listForRun =>
    exact ⟨congrArg (SnapshotAnswer.ofRead .listed) (h.listForRun halike), h⟩
  | close => exact ⟨rfl, rfl, h.rows, h.verified⟩

end Mirrors

def InMemorySnapshotStore.step (contract : SnapshotContract S) (memory : InMemorySnapshotStore S)
    (call : SnapshotCall S) : Option (InMemorySnapshotStore S) :=
  some (memory.answer contract call).1

/-- Both stores give the same answers to every sequence of calls that meets the condition. -/
theorem answers_agree {collation : Collation} {calls : List (SnapshotCall S)}
    (halike : Trace.Along (InMemorySnapshotStore.step contract) (Mirrors.Alike contract collation)
      InMemorySnapshotStore.new calls) :
    InMemorySnapshotStore.new.answers contract calls =
      PostgresSnapshotStore.new.answers contract collation calls := by
  have hmirrors : ∀ (calls : List (SnapshotCall S)) (memory : InMemorySnapshotStore S)
      (postgres : PostgresSnapshotStore), Mirrors contract memory postgres →
      Trace.Along (InMemorySnapshotStore.step contract) (Mirrors.Alike contract collation) memory
        calls → memory.answers contract calls = postgres.answers contract collation calls := by
    intro calls
    induction calls with
    | nil => exact fun _ _ _ _ => rfl
    | cons _ _ ih =>
      intro _ _ hmirrors halong
      obtain ⟨hanswer, hnext⟩ := hmirrors.agree halong.1
      have hrest := ih _ _ hnext (halong.2 _ rfl)
      exact congrArg₂ List.cons hanswer hrest
  exact hmirrors calls _ _ .new halike

/-! ## Two snapshots of a run -/

inductive SampleSnapshot where
  /-- `"snapshot-1"` -/
  | first
  /-- `"snapshot-2"`, in the same instant -/
  | tied
  /-- `"snapshot-2"`, a microsecond later -/
  | later
  deriving DecidableEq

namespace SampleSnapshot

def createdAt : SampleSnapshot → ℤ
  | .first | .tied => 0
  | .later => 1

def snapshotId : SampleSnapshot → String
  | .first => "snapshot-1"
  | .tied | .later => "snapshot-2"

def payloadDigest : SampleSnapshot → String
  | .first => String.ofList (List.replicate 64 'a')
  | .tied => String.ofList (List.replicate 64 'b')
  | .later => String.ofList (List.replicate 64 'c')

def toJson : SampleSnapshot → String
  | .first => "\x7b\"snapshot_id\":\"snapshot-1\",\"created_at\":0\x7d"
  | .tied => "\x7b\"snapshot_id\":\"snapshot-2\",\"created_at\":0\x7d"
  | .later => "\x7b\"snapshot_id\":\"snapshot-2\",\"created_at\":1\x7d"

def fromJson (text : String) : Except SnapshotErrorCode SampleSnapshot :=
  if text = toJson .first then .ok .first
  else if text = toJson .tied then .ok .tied
  else if text = toJson .later then .ok .later
  else .error .corrupted

end SampleSnapshot

open SampleSnapshot in
def sampleContract : SnapshotContract SampleSnapshot where
  snapshotSchemaVersion _ := 1
  snapshotId := snapshotId
  runId _ := "run-1"
  createdAt := createdAt
  payloadDigest := payloadDigest
  verifyDigest _ := true
  snapshotToJson := toJson
  snapshotFromJson := fromJson
  version_pos _ := Nat.one_pos
  safe_id s := by cases s <;> exact ⟨by decide +kernel, by decide +kernel⟩
  safe_run _ := ⟨by decide +kernel, by decide +kernel⟩
  digest_length s := by cases s <;> decide +kernel
  digest_text s := by cases s <;> decide +kernel
  json_text s := by cases s <;> decide +kernel
  roundTrip s _ := by cases s <;> simp [fromJson, toJson]

def codePointCollation : Collation where
  le a b := decide (a ≤ b)
  total a b := by simpa using String.le_total a b
  trans a b c hab hbc :=
    decide_eq_true (String.le_trans (of_decide_eq_true hab) (of_decide_eq_true hbc))
  antisymm a b hab hba := String.le_antisymm (of_decide_eq_true hab) (of_decide_eq_true hba)

/-- Saved in different instants, the second snapshot is the latest of both stores. -/
theorem answers_agree_later :
    InMemorySnapshotStore.new.answers sampleContract
        [.save .first, .save .later, .latest "run-1"] =
      [.status .saved, .status .saved, .found (some .later)] ∧
    PostgresSnapshotStore.new.answers sampleContract codePointCollation
        [.save .first, .save .later, .latest "run-1"] =
      [.status .saved, .status .saved, .found (some .later)] := by
  have hmemory : InMemorySnapshotStore.new.answers sampleContract
      [.save .first, .save .later, .latest "run-1"] =
      [.status .saved, .status .saved, .found (some .later)] := by decide +kernel
  refine ⟨hmemory, ?_⟩
  have hdistinct : Mirrors.SameOrder sampleContract codePointCollation
      ⟨(Dict.empty.set "snapshot-1" .first).set "snapshot-2" .later, false⟩ "run-1" 1 := by
    intro a ha b hb _ _ htime hid
    have hvalues : ((Dict.empty.set "snapshot-1" SampleSnapshot.first).set "snapshot-2"
        .later).values = [.first, .later] := by decide +kernel
    rw [hvalues] at ha hb
    -- one snapshot has one id, two snapshots have two instants
    rcases List.mem_pair.mp ha with rfl | rfl <;> rcases List.mem_pair.mp hb with rfl | rfl
    · exact absurd rfl hid
    · exact absurd htime (by decide)
    · exact absurd htime (by decide)
    · exact absurd rfl hid
  have halong : Trace.Along (InMemorySnapshotStore.step sampleContract)
      (Mirrors.Alike sampleContract codePointCollation) InMemorySnapshotStore.new
      [.save .first, .save .later, .latest "run-1"] := by
    refine ⟨trivial, fun memory h => ?_⟩
    cases h
    refine ⟨trivial, fun memory h => ?_⟩
    cases h
    refine ⟨fun _ => ⟨by decide +kernel, hdistinct⟩, fun memory h => ?_⟩
    cases h
    trivial
  rw [← hmemory]
  exact (answers_agree halong).symm

/-- Saved in the same instant, each store has its own latest snapshot. -/
theorem tied_latest_differs :
    InMemorySnapshotStore.new.answers sampleContract
        [.save .first, .save .tied, .latest "run-1"] =
      [.status .saved, .status .saved, .found (some .tied)] ∧
    PostgresSnapshotStore.new.answers sampleContract codePointCollation
        [.save .first, .save .tied, .latest "run-1"] =
      [.status .saved, .status .saved, .found (some .first)] := by
  decide +kernel

end LocalAgent.Runtime
