import LocalAgent.Lib.Dict
import LocalAgent.Lib.Json
import LocalAgent.Lib.Op
import LocalAgent.Lib.Sha256
import Mathlib.Data.List.Dedup
import Mathlib.Data.List.Induction

/-!
# LocalAgent.Runtime.MemoryDependencies — `bounded_dependencies` of `core/runtime/memory_scope.py`

The dependencies that the rows and exchanges shown to a run pass on to it: `load_context` of
`core/runtime/memory_service.py` with the queries it makes, and what `bind_run` and
`append_exchange` make of its manifest.  The rows themselves and their visibility are inputs.

* `bounded_eq_ok_iff`: the limit is on the list, before duplicates go.
* `bounded_bounded`, `bounded_congr`: the result bounds itself and has no order to depend on.
* `dependencies_usable_iff`: when a run can be loaded, bound and appended.
-/

namespace LocalAgent.Runtime

namespace MemoryContext

/-- `value.get(key)`; a value that is no dict has no field. -/
def field (value : Json) (key : String) : Option Json :=
  match value with
  | .obj fields => fields.lookup key
  | _ => none

def isText : Option Json → Bool
  | some (.str _) => true
  | _ => false

/-- `type(...) is int` and at least one. -/
def isPositive : Option Json → Bool
  | some (.int n) => 1 ≤ n
  | _ => false

def isDigest : Option Json → Bool
  | some (.str s) => s.length = 64
  | _ => false

def kinds : List String := ["RECORD", "EXCHANGE", "USER_MESSAGE", "SCOPE"]

/-- What `bounded_dependencies` asks of each value. -/
def wellFormed (value : Json) : Bool :=
  match field value "kind" with
  | some (.str kind) =>
    kind ∈ kinds && isText (field value "scope_id") && isPositive (field value "epoch") &&
      (kind = "SCOPE" || (isText (field value "id") && isPositive (field value "version") &&
        isDigest (field value "digest")))
  | _ => false

def unverifiable : String := "MEMORY_DEPENDENCIES_UNVERIFIABLE"

/-- The checks of one value; a list or a dict is no element of a set. -/
def checkDependency (value : Json) : Except String Unit :=
  match field value "kind" with
  | some (.arr _) | some (.obj _) => .error "TypeError"
  | _ => raiseIf (wellFormed value = false) unverifiable

/-- `canonical_payload_digest`. -/
def payloadDigest (value : Json) : String := Sha256.hexdigest value.canonical

/-- `{canonical_payload_digest(v): dict(v) for v in values}`. -/
def byDigest (values : List Json) : Dict String Json :=
  values.foldl (fun result v => result.set (payloadDigest v) v) .empty

def boundedDependencies (values : List Json) : Except String (List Json) := do
  raiseIf (128 < values.length) unverifiable
  values.forM checkDependency
  return (byDigest values).sorted.values

/-- A memory row or an exchange: the dependencies it was written with, and the reference to it. -/
structure MemorySource where
  sourceDependencies : List Json
  reference : Json

/-- The `dependencies` of an entry of `retrieve` or `history`. -/
def MemorySource.dependencies (source : MemorySource) : Except String (List Json) :=
  boundedDependencies (source.sourceDependencies ++ [source.reference])

/-- `load_context`: the manifest, from the rows of the two queries and the exchanges. -/
def loadContext (rows exchanges : List MemorySource) : Except String (List Json) := do
  let retrieved ← rows.mapM MemorySource.dependencies
  let history ← exchanges.mapM MemorySource.dependencies
  boundedDependencies (retrieved.take 32 ++ history).flatten

/-- `bind_run`, which bounds the manifest once more in `_dependencies`. -/
def bindRun (manifest : List Json) : Except String (List Json) := do
  let manifest ← boundedDependencies manifest
  let _ ← boundedDependencies manifest
  return manifest

/-- The entry of a bound scope. -/
def scopeEntry (scope : String × ℕ) : Json :=
  .obj [("kind", .str "SCOPE"), ("scope_id", .str scope.1), ("epoch", .int scope.2)]

/-- `append_exchange`: the dependencies of the exchange. -/
def appendExchange (manifest : List Json) (scopes : List (String × ℕ)) :
    Except String (List Json) :=
  boundedDependencies (manifest ++ scopes.map scopeEntry)

/-! ## The result by its digests -/

variable {xs ys : List Json} {v : Json} {k : String}

theorem checkDependency_eq_ok : checkDependency v = .ok () ↔ wellFormed v = true := by
  unfold checkDependency wellFormed
  split <;> simp_all

theorem bounded_eq_ok_iff : boundedDependencies xs = .ok ys ↔
    xs.length ≤ 128 ∧ (∀ v ∈ xs, wellFormed v = true) ∧ (byDigest xs).sorted.values = ys := by
  simp only [boundedDependencies, seq_eq_ok, raiseIf_ok, not_lt, except_forM_eq_ok,
    checkDependency_eq_ok, pure, Except.pure, Except.ok.injEq]

theorem mem_byDigest (h : (byDigest xs).get? k = some v) : v ∈ xs ∧ payloadDigest v = k := by
  induction xs using List.reverseRecOn with
  | nil => cases h
  | append_singleton xs x ih =>
    rw [byDigest, List.foldl_append] at h
    rcases Dict.get?_set_cases h with ⟨rfl, rfl⟩ | ⟨-, h⟩
    · exact ⟨List.mem_concat_self, rfl⟩
    · exact ⟨List.mem_append_left _ (ih h).1, (ih h).2⟩

/-- The number of elements that the code tells apart. -/
def distinct (xs : List Json) : ℕ := (xs.map payloadDigest).dedup.length

theorem mem_keys_byDigest : k ∈ (byDigest xs).keys ↔ k ∈ xs.map payloadDigest := by
  rw [byDigest, Dict.mem_keys_foldl_set]
  simp

/-- The result of bounding a list that is in order. -/
def bounded (xs : List Json) : List Json := (byDigest xs).sorted.values

theorem digest_of_entry {e : String × Json} (h : e ∈ (byDigest xs).sorted.entries) :
    payloadDigest e.2 = e.1 ∧ e.2 ∈ xs := by
  have hget := Dict.get?_eq_some_iff.mpr h
  rw [Dict.get?_sorted] at hget
  exact (mem_byDigest hget).symm

theorem map_digest_bounded : (bounded xs).map payloadDigest = (byDigest xs).sorted.keys := by
  rw [bounded, Dict.values, List.map_map, Dict.keys]
  exact List.map_congr_left fun e he => (digest_of_entry he).1

theorem mem_of_mem_bounded (h : v ∈ bounded xs) : v ∈ xs := by
  obtain ⟨e, he, rfl⟩ := List.mem_map.mp h
  exact (digest_of_entry he).2

theorem mem_map_digest_bounded : k ∈ (bounded xs).map payloadDigest ↔ k ∈ xs.map payloadDigest := by
  rw [map_digest_bounded, Dict.mem_keys_sorted, mem_keys_byDigest]

theorem length_bounded : (bounded xs).length = distinct xs := by
  rw [← List.length_map payloadDigest, distinct]
  refine ((List.perm_ext_iff_of_nodup ?_ (List.nodup_dedup _)).mpr fun k => ?_).length_eq
  · rw [map_digest_bounded]
    exact Dict.keys_nodup _
  · rw [mem_map_digest_bounded, List.mem_dedup]

theorem entries_byDigest (h : (xs.map payloadDigest).Nodup) :
    (byDigest xs).entries = xs.map fun v => (payloadDigest v, v) := by
  induction xs using List.reverseRecOn with
  | nil => rfl
  | append_singleton xs x ih =>
    rw [List.map_append, List.nodup_append'] at h
    obtain ⟨hxs, -, hnot⟩ := h
    rw [byDigest, List.foldl_append, List.map_append, ← ih hxs]
    refine Dict.entries_set_of_not_mem fun hk => ?_
    exact hnot (mem_keys_byDigest.mp hk) (List.mem_singleton.mpr rfl)

theorem bounded_bounded : bounded (bounded xs) = bounded xs := by
  have hkeys : ((bounded xs).map payloadDigest).Pairwise (· < ·) := by
    rw [map_digest_bounded]
    exact List.pairwise_map.mpr (byDigest xs).pairwise_sorted
  have hentries := entries_byDigest (hkeys.imp ne_of_lt)
  have hsorted : (byDigest (bounded xs)).sorted.entries = (byDigest (bounded xs)).entries := by
    refine List.Pairwise.insertionSort_eq ?_
    rw [hentries]
    exact List.pairwise_map.mpr ((List.pairwise_map.mp hkeys).imp le_of_lt)
  show (byDigest (bounded xs)).sorted.entries.map Prod.snd = _
  rw [hsorted, hentries, List.map_map]
  exact List.map_id _

/-- No two elements share a digest. -/
def CollisionFree (xs : List Json) : Prop :=
  ∀ v ∈ xs, ∀ w ∈ xs, payloadDigest v = payloadDigest w → v = w

theorem get?_byDigest (h : CollisionFree xs) {k : String} {v : Json} :
    (byDigest xs).get? k = some v ↔ v ∈ xs ∧ payloadDigest v = k := by
  refine ⟨mem_byDigest, fun ⟨hv, hk⟩ => ?_⟩
  obtain ⟨w, hw⟩ := Dict.mem_keys_iff.mp
    (mem_keys_byDigest.mpr (List.mem_map.mpr ⟨v, hv, hk⟩))
  obtain ⟨hmem, hdigest⟩ := mem_byDigest hw
  rw [hw, h w hmem v hv (hdigest.trans hk.symm)]

/-- The bounded list depends on the set of the dependencies only. -/
theorem bounded_congr (h : CollisionFree xs) (hys : ∀ v, v ∈ ys ↔ v ∈ xs) :
    bounded ys = bounded xs := by
  have hfree : CollisionFree ys := fun v hv w hw => h v ((hys v).mp hv) w ((hys w).mp hw)
  have hnodup : ∀ d : Dict String Json, d.entries.Nodup := fun d => .of_map Prod.fst d.nodup
  have hperm : (byDigest ys).sorted.entries.Perm (byDigest xs).sorted.entries := by
    refine (List.perm_ext_iff_of_nodup (hnodup _) (hnodup _)).mpr fun ⟨k, v⟩ => ?_
    simp [← Dict.get?_eq_some_iff, get?_byDigest h, get?_byDigest hfree, hys]
  exact congrArg (List.map Prod.snd) (hperm.eq_of_pairwise
    (fun a b _ _ hab hba => absurd hab hba.not_gt) (byDigest ys).pairwise_sorted
    (byDigest xs).pairwise_sorted)

/-! ## Runs -/

/-- A row's own list. -/
def MemorySource.own (source : MemorySource) : List Json :=
  source.sourceDependencies ++ [source.reference]

/-- The lists that `load_context` puts together. -/
def shown (rows exchanges : List MemorySource) : List (List Json) :=
  ((rows.take 32) ++ exchanges).map MemorySource.own

/-- The dependencies of a run are loaded, bound, and taken over by its exchange. -/
def Usable (rows exchanges : List MemorySource) (scopes : List (String × ℕ)) : Prop :=
  ∃ manifest, loadContext rows exchanges = .ok manifest ∧ bindRun manifest = .ok manifest ∧
    ∃ dependencies, appendExchange manifest scopes = .ok dependencies

/-- No list is too long: none of the rows', not all of them one after the other, and not the
manifest with the scopes. -/
def Fits (rows exchanges : List MemorySource) (scopes : List (String × ℕ)) : Prop :=
  (∀ source ∈ rows ++ exchanges, source.own.length ≤ 128) ∧
  ((shown rows exchanges).map distinct).sum ≤ 128 ∧
  distinct (shown rows exchanges).flatten + scopes.length ≤ 128

variable {rows exchanges : List MemorySource} {scopes : List (String × ℕ)}

/-- Every source's list is read exactly when none is longer than its bound. -/
theorem mapM_eq_ok_iff {sources : List MemorySource}
    (hwf : ∀ source ∈ sources, ∀ v ∈ source.own, wellFormed v = true)
    {lists : List (List Json)} : sources.mapM MemorySource.dependencies = .ok lists ↔
      (∀ source ∈ sources, source.own.length ≤ 128) ∧
        lists = sources.map fun source => bounded source.own := by
  induction sources generalizing lists with
  | nil => simp [pure, Except.pure, eq_comm]
  | cons source sources ih =>
    obtain ⟨hsource, hsources⟩ := List.forall_mem_cons.mp hwf
    rw [List.mapM_cons, List.forall_mem_cons]
    constructor
    · intro h
      obtain ⟨first, hfirst, h⟩ := bind_eq_ok.mp h
      obtain ⟨rest, hrest, h⟩ := bind_eq_ok.mp h
      cases h
      obtain ⟨hlength, -, hvalues⟩ := bounded_eq_ok_iff.mp hfirst
      obtain ⟨hlengths, hlists⟩ := (ih hsources).mp hrest
      exact ⟨⟨hlength, hlengths⟩, by rw [hlists, ← hvalues]; rfl⟩
    · rintro ⟨⟨hlength, hlengths⟩, rfl⟩
      have hfirst : source.dependencies = .ok (bounded source.own) :=
        bounded_eq_ok_iff.mpr ⟨hlength, hsource, rfl⟩
      rw [hfirst, (ih hsources).mpr ⟨hlengths, rfl⟩]
      rfl

theorem wellFormed_scopeEntry {scope : String × ℕ} (h : 0 < scope.2) :
    wellFormed (scopeEntry scope) = true := by
  have : (1 : ℤ) ≤ scope.2 := by exact_mod_cast h
  simp [wellFormed, scopeEntry, field, List.lookup_cons, kinds, isText, isPositive, this]

theorem distinct_le_length : distinct xs ≤ xs.length :=
  (List.dedup_sublist _).length_le.trans_eq (List.length_map _)

theorem distinct_flatten_bounded (lists : List (List Json)) :
    distinct (lists.map bounded).flatten = distinct lists.flatten := by
  refine ((List.perm_ext_iff_of_nodup (List.nodup_dedup _) (List.nodup_dedup _)).mpr
    fun k => ?_).length_eq
  simp only [List.mem_dedup, List.map_flatten, List.mem_flatten, List.map_map, List.mem_map,
    Function.comp_apply, exists_exists_and_eq_and]
  simp only [← List.mem_map (f := payloadDigest), mem_map_digest_bounded]

/-- The condition on the inputs decides whether the collected list can be used. -/
theorem usable_iff_fits
    (hwf : ∀ source ∈ rows ++ exchanges, ∀ v ∈ source.own, wellFormed v = true)
    (hscopes : ∀ scope ∈ scopes, 0 < scope.2) :
    Usable rows exchanges scopes ↔ Fits rows exchanges scopes := by
  obtain ⟨hrows, hexchanges⟩ := List.forall_mem_append.mp hwf
  set lists := (shown rows exchanges).map bounded with hlists
  have hparts : (rows.map fun source => bounded source.own).take 32 ++
      exchanges.map (fun source => bounded source.own) = lists := by
    simp only [hlists, shown, List.map_append, List.map_take, List.map_map]
    rfl
  have hall : ∀ v ∈ lists.flatten, wellFormed v = true := by
    intro v hv
    obtain ⟨l, hl, hv⟩ := List.mem_flatten.mp hv
    obtain ⟨own, hown, rfl⟩ := List.mem_map.mp hl
    obtain ⟨source, hsource, rfl⟩ := List.mem_map.mp hown
    refine hwf source (List.mem_append.mpr ?_) v (mem_of_mem_bounded hv)
    exact (List.mem_append.mp hsource).imp_left List.mem_of_mem_take
  have hlength : lists.flatten.length = ((shown rows exchanges).map distinct).sum := by
    rw [List.length_flatten, hlists, List.map_map]
    exact congrArg List.sum (List.map_congr_left fun own _ => length_bounded)
  have hload : ∀ manifest, loadContext rows exchanges = .ok manifest ↔
      (∀ source ∈ rows ++ exchanges, source.own.length ≤ 128) ∧ lists.flatten.length ≤ 128 ∧
        bounded lists.flatten = manifest := by
    intro manifest
    rw [List.forall_mem_append]
    constructor
    · intro h
      obtain ⟨retrieved, hretrieved, h⟩ := bind_eq_ok.mp h
      obtain ⟨history, hhistory, h⟩ := bind_eq_ok.mp h
      obtain ⟨hfirst, rfl⟩ := (mapM_eq_ok_iff hrows).mp hretrieved
      obtain ⟨hsecond, rfl⟩ := (mapM_eq_ok_iff hexchanges).mp hhistory
      rw [hparts] at h
      obtain ⟨hle, -, hvalues⟩ := bounded_eq_ok_iff.mp h
      exact ⟨⟨hfirst, hsecond⟩, hle, hvalues⟩
    · rintro ⟨⟨hfirst, hsecond⟩, hle, hvalues⟩
      rw [loadContext, (mapM_eq_ok_iff hrows).mpr ⟨hfirst, rfl⟩, ok_bind,
        (mapM_eq_ok_iff hexchanges).mpr ⟨hsecond, rfl⟩, ok_bind, hparts]
      exact bounded_eq_ok_iff.mpr ⟨hle, hall, hvalues⟩
  have hmanifest : ∀ v ∈ bounded lists.flatten, wellFormed v = true :=
    fun v hv => hall v (mem_of_mem_bounded hv)
  have hbind (hle : lists.flatten.length ≤ 128) :
      boundedDependencies (bounded lists.flatten) = .ok (bounded lists.flatten) :=
    bounded_eq_ok_iff.mpr ⟨length_bounded.trans_le (distinct_le_length.trans hle), hmanifest,
      bounded_bounded⟩
  have happend : (∃ dependencies, appendExchange (bounded lists.flatten) scopes =
      .ok dependencies) ↔ distinct (shown rows exchanges).flatten + scopes.length ≤ 128 := by
    simp only [appendExchange, bounded_eq_ok_iff, List.length_append, List.length_map,
      length_bounded, hlists, distinct_flatten_bounded]
    refine ⟨fun ⟨_, h, _⟩ => h, fun h => ⟨_, h, List.forall_mem_append.mpr ⟨hmanifest, ?_⟩, rfl⟩⟩
    exact List.forall_mem_map.mpr fun scope hscope => wellFormed_scopeEntry (hscopes scope hscope)
  constructor
  · rintro ⟨manifest, hloaded, -, hexchange⟩
    obtain ⟨hown, hle, rfl⟩ := (hload manifest).mp hloaded
    exact ⟨hown, hlength ▸ hle, happend.mp hexchange⟩
  · rintro ⟨hown, hle, hexchange⟩
    rw [← hlength] at hle
    refine ⟨_, (hload _).mpr ⟨hown, hle, rfl⟩, ?_, happend.mpr hexchange⟩
    rw [bindRun, hbind hle, ok_bind, hbind hle]
    rfl

/-- **Dependencies of a run.**  With well-formed dependencies a run can be loaded, bound and
appended exactly when they fit, repetitions included; `bounded_dependencies` is defined on the
elements, not on the list, exactly when repetitions do not make it too long; and its result bounds
itself and, without collisions of digests, depends on the elements alone. -/
theorem dependencies_usable_iff (rows exchanges : List MemorySource) (scopes : List (String × ℕ))
    (hwf : ∀ source ∈ rows ++ exchanges, ∀ v ∈ source.own, wellFormed v = true)
    (hscopes : ∀ scope ∈ scopes, 0 < scope.2) (xs : List Json) :
    (Usable rows exchanges scopes ↔ Fits rows exchanges scopes) ∧
    (((∃ ys, boundedDependencies xs = .ok ys) ↔
        (∀ v ∈ xs, wellFormed v = true) ∧ distinct xs ≤ 128) ↔
      ((∀ v ∈ xs, wellFormed v = true) → distinct xs ≤ 128 → xs.length ≤ 128)) ∧
    ∀ ys, boundedDependencies xs = .ok ys → boundedDependencies ys = .ok ys ∧
      ∀ zs, (∀ v, v ∈ zs ↔ v ∈ xs) → CollisionFree xs →
        (boundedDependencies zs = .ok ys ↔ zs.length ≤ 128) := by
  refine ⟨usable_iff_fits hwf hscopes, ?_, fun ys hys => ?_⟩
  · have hdefined : (∃ ys, boundedDependencies xs = .ok ys) ↔
        xs.length ≤ 128 ∧ ∀ v ∈ xs, wellFormed v = true := by
      simp [bounded_eq_ok_iff]
    have : distinct xs ≤ xs.length := distinct_le_length
    rw [hdefined]
    constructor
    · exact fun h hall hfew => (h.mpr ⟨hall, hfew⟩).1
    · exact fun h => ⟨fun ⟨hle, hall⟩ => ⟨hall, this.trans hle⟩,
        fun ⟨hall, hfew⟩ => ⟨h hall hfew, hall⟩⟩
  · obtain ⟨hle, hall, rfl⟩ := bounded_eq_ok_iff.mp hys
    refine ⟨bounded_eq_ok_iff.mpr ⟨length_bounded.trans_le (distinct_le_length.trans hle),
      fun v hv => hall v (mem_of_mem_bounded hv), bounded_bounded⟩, fun zs hzs hfree => ?_⟩
    rw [bounded_eq_ok_iff]
    exact ⟨And.left, fun hshort => ⟨hshort, fun v hv => hall v ((hzs v).mp hv),
      bounded_congr hfree hzs⟩⟩

def sampleReference (kind id : String) : Json :=
  .obj [("kind", .str kind), ("scope_id", .str "scope"), ("epoch", .int 1), ("id", .str id),
    ("version", .int 1), ("digest", .str (.ofList (List.replicate 64 'a')))]

def sampleRow : MemorySource := ⟨[scopeEntry ("scope", 1)], sampleReference "RECORD" "row"⟩

/-- The exchange inherits what the row shows. -/
def sampleExchange : MemorySource := ⟨sampleRow.own, sampleReference "EXCHANGE" "exchange"⟩

/-- Three different dependencies in a list of five. -/
def sampleShown : List Json := (shown [sampleRow] [sampleExchange]).flatten

theorem dependencies_usable_iff_shared :
    sampleShown.length = 5 ∧ distinct sampleShown = 3 ∧
    Usable [sampleRow] [sampleExchange] [("scope", 1)] ∧
    ∃ ys, boundedDependencies sampleShown = .ok ys ∧ boundedDependencies ys = .ok ys := by
  have hdistinct : distinct sampleShown = 3 := by decide +kernel
  have hsources : ∀ source ∈ [sampleRow] ++ [sampleExchange], ∀ v ∈ source.own,
      wellFormed v = true := by decide +kernel
  have hshown : ∀ v ∈ sampleShown, wellFormed v = true := by decide +kernel
  obtain ⟨husable, hdefined, hbounded⟩ := dependencies_usable_iff [sampleRow] [sampleExchange]
    [("scope", 1)] hsources (by decide) sampleShown
  obtain ⟨ys, hys⟩ := (hdefined.mpr fun _ _ => by decide).mpr ⟨hshown, by rw [hdistinct]; decide⟩
  refine ⟨rfl, hdistinct, husable.mpr ?_, ys, hys, (hbounded ys hys).1⟩
  exact ⟨by decide +kernel, by decide +kernel, by decide +kernel⟩

/-- The same scope again and again. -/
def repeated : List Json := List.replicate 129 (scopeEntry ("scope", 1))

theorem repeated_unverifiable : (∀ v ∈ repeated, wellFormed v = true) ∧ distinct repeated ≤ 128 ∧
    boundedDependencies repeated = .error unverifiable := by
  refine ⟨fun v hv => ?_, ?_, ?_⟩
  · rw [List.eq_of_mem_replicate hv]
    exact wellFormed_scopeEntry Nat.one_pos
  · rw [distinct, repeated, List.map_replicate, List.replicate_dedup (by decide)]
    exact Nat.succ_le_of_lt (Nat.zero_lt_succ 127)
  · rw [boundedDependencies, repeated, List.length_replicate]
    rfl

end MemoryContext

end LocalAgent.Runtime
