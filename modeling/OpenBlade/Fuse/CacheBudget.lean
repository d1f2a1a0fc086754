import Mathlib
import OpenBlade.Effects.Automaton
import OpenBlade.Effects.Traverse
import OpenBlade.Fuse.HydrationCache

/-!
# The index and the budget of the cache

After every operation the order of use names exactly the entries that are on disk, with their sizes, and after every insertion and
release the budget is kept unless all but the newest entry are pinned. Files may be altered from outside at any time. One path is
excepted: `retrieve` deletes an entry that does not hash to its name, and leaves it in the order of use.
-/

namespace OpenBlade

open Effects Cache

/-- What happens to a cache: its operations, a new start of the process, and damage to its files from outside. -/
inductive CacheOp where
  | store (checksum : String) (data : Bytes) (now : Nat) (fault : Option HydrationCache.StoreFault)
  | storeVerified (checksum : String) (staged : Option Bytes) (now : Nat) (fault : Option HydrationCache.StoreFault)
  | retrieve (checksum : String)
  | readRange (checksum : String) (offset length : Int)
  | verifyEntry (checksum : String)
  | acquire (checksum : String)
  | release (checksum : String)
  | evict (checksum : String)
  | reopen
  | damage (key : Key) (file : File)
  | loseRecord (checksum : String)
  deriving Repr, DecidableEq

/-- A cache, and which entries have another size than the cache last wrote. -/
structure CacheRun where
  cache : HydrationCache
  resized : List String := []
  deriving Repr, DecidableEq

namespace CacheRun

variable (lib : Libraries) (run : CacheRun)

/-- An operation of the cache that inserts an entry, which then has the size it was written with. -/
def inserted (checksum : String) (done : Except Exn Unit × HydrationCache) : Except Exn Unit × CacheRun :=
  (done.1, { cache := done.2
             resized := if done.1 = .ok () then run.resized.filter (· ≠ checksum) else run.resized })

/-- A file is altered from outside. -/
def damaged (key : Key) (file : File) : CacheRun :=
  match run.cache.dir.files.get? key with
  | none => run
  | some old =>
    { cache := run.cache.writeFile key file
      resized := if key = entryKey key.2 ∧ old.bytes.length ≠ file.bytes.length then key.2 :: run.resized else run.resized }

/-- The next thing that happens. -/
def step : CacheOp → Except Exn Unit × CacheRun
  | .store checksum data now fault => run.inserted checksum (run.cache.store lib checksum data now fault)
  | .storeVerified checksum staged now fault => run.inserted checksum (run.cache.storeVerified lib checksum staged now fault)
  | .retrieve checksum =>
    let done := run.cache.retrieve lib checksum
    (done.1.map fun _ => (), { run with cache := done.2 })
  | .readRange checksum offset length => ((run.cache.readRange checksum offset length).map fun _ => (), run)
  | .verifyEntry checksum =>
    let done := run.cache.verifyEntry lib checksum
    (done.1.map fun _ => (), { run with cache := done.2 })
  | .acquire checksum => (.ok (), { run with cache := run.cache.acquire checksum })
  | .release checksum =>
    let done := run.cache.release checksum
    (done.1, { run with cache := done.2 })
  | .evict checksum =>
    let done := run.cache.evict checksum
    (done.1, { run with cache := done.2 })
  | .reopen =>
    let done := HydrationCache.openDirectory run.cache.maxBytes run.cache.dir
    (done.1, { run with cache := done.2 })
  | .damage key file => (.ok (), run.damaged key file)
  | .loseRecord checksum => (.ok (), { run with cache := run.cache.unlink (metaKey checksum) })

/-- The system these operations drive, from a directory on. -/
def system (maxBytes : Option Int) (dir : Directory) : Automaton CacheOp (Except Exn Unit) where
  State := CacheRun
  init := { cache := (HydrationCache.openDirectory maxBytes dir).2 }
  step run op := run.step lib op

/-- What operations lead to, from a directory on. -/
def reach (maxBytes : Option Int) (dir : Directory) (ops : List CacheOp) : CacheRun :=
  (system lib maxBytes dir).after (system lib maxBytes dir).init ops

end CacheRun

/-! ## The statement -/

namespace Cache

/-- Names that entries have: safe ones that the scan of the directory sees. -/
def IsEntryName (checksum : String) : Prop := isSafe checksum = true ∧ isHidden checksum = false ∧ 2 ≤ checksum.length

instance (checksum : String) : Decidable (IsEntryName checksum) := inferInstanceAs (Decidable (_ ∧ _))

/-- The entries of a directory. -/
def Directory.entries (dir : Directory) : Dict Key File :=
  dir.files.filter fun file => file.1 = entryKey file.1.2 ∧ IsEntryName file.1.2

end Cache

namespace CacheRun

/-- The order of use names exactly the entries on disk, with their sizes. -/
structure Represents (run : CacheRun) : Prop where
  nodup : run.cache.lru.keys.Nodup
  indexed : ∀ checksum, checksum ∈ run.cache.lru.keys ↔ IsEntryName checksum ∧ (run.cache.file? checksum).isSome = true
  sizes : ∀ checksum size file, run.cache.lru.get? checksum = some size → run.cache.file? checksum = some file →
    checksum ∉ run.resized → size = file.bytes.length
  used : run.resized = [] →
    run.cache.usedBytes = (run.cache.dir.entries.map fun file => (file.2.bytes.length : Int)).sum

/-- The budget is kept, or every entry but the newest is pinned. -/
def WithinBudget (cache : HydrationCache) : Prop :=
  ∀ budget, cache.maxBytes = some budget →
    cache.usedBytes ≤ budget ∨ ∀ checksum ∈ cache.lru.keys.dropLast, 0 < cache.openCount checksum

/-- A store is of a name the scan sees, and no I/O error stops it between the file and the order of use; what is retrieved hashes
to its name. -/
def Clean (lib : Libraries) (run : CacheRun) : CacheOp → Prop
  | .store checksum _ _ fault => isSafe checksum = true → IsEntryName checksum ∧ fault = none
  | .storeVerified checksum staged _ fault =>
    ∀ data, staged = some data → lib.hexdigest data = checksum → isSafe checksum = true →
      IsEntryName checksum ∧ fault ≠ some .atRecord
  | .retrieve checksum => ∀ file, run.cache.file? checksum = some file → lib.hexdigest file.bytes = checksum
  | _ => True

end CacheRun

/-- Operations after which the budget is looked at. -/
def CacheOp.rebalances : CacheOp → Bool
  | .store .. | .storeVerified .. | .release _ => true
  | _ => false

namespace Cache

/-- What looks like an entry is one, under its own name. -/
def Directory.Placed (dir : Directory) : Prop :=
  ∀ file ∈ dir.files, file.1.1.length = 2 → isHidden file.1.2 = false → file.1 = entryKey file.1.2 ∧ isSafe file.1.2 = true

/-- The index, as far as it names files that are there, names entries with the sizes they have or had. -/
def Directory.Honest (dir : Directory) (resized : List String) : Prop :=
  ∀ entries, dir.index = some (.items entries) → ∀ checksum size, IndexItem.entry checksum (some size) ∈ entries →
    isSafe checksum = true → ∀ file, dir.files.get? (entryKey checksum) = some file →
      IsEntryName checksum ∧ (checksum ∉ resized → size = file.bytes.length)

end Cache

namespace CacheAux

/-! ## Files and names -/

theorem entryKey_inj {a b : String} : entryKey a = entryKey b ↔ a = b :=
  ⟨fun h => congrArg Prod.snd h, fun h => h ▸ rfl⟩

theorem isHidden_meta (checksum : String) : isHidden (checksum ++ ".meta.json") = true := by
  simp [isHidden, String.toList_append]

/-- An integrity record is no entry. -/
theorem metaKey_ne {checksum checksum' : String} (h : isHidden checksum' = false) : metaKey checksum ≠ entryKey checksum' := by
  intro heq
  have hname : checksum ++ ".meta.json" = checksum' := congrArg Prod.snd heq
  rw [← hname, isHidden_meta] at h
  cases h

section

variable {cache : HydrationCache} {checksum checksum' : String} {resized : List String}

theorem file?_writeFile (key : Key) (file : File) :
    (cache.writeFile key file).file? checksum = if key = entryKey checksum then some file else cache.file? checksum :=
  Dict.get?_set _ _ _ _

theorem file?_unlink (key : Key) :
    (cache.unlink key).file? checksum = if key = entryKey checksum then none else cache.file? checksum :=
  Dict.get?_erase _ _ _

theorem get?_moveToEnd : (cache.moveToEnd checksum).lru.get? checksum' = cache.lru.get? checksum' := by
  unfold HydrationCache.moveToEnd
  cases hsize : cache.lru.get? checksum with
  | none => rfl
  | some size =>
    dsimp only
    rw [Dict.get?_append, Dict.get?_erase, Dict.get?_cons, Dict.get?_nil]
    by_cases h : checksum = checksum'
    · rw [if_pos h, if_pos h, ← h, hsize]
      rfl
    · rw [if_neg h, if_neg h, Option.or_none]

theorem nodup_moveToEnd (h : cache.lru.keys.Nodup) : (cache.moveToEnd checksum).lru.keys.Nodup := by
  unfold HydrationCache.moveToEnd
  cases hsize : cache.lru.get? checksum with
  | none => exact h
  | some size =>
    have hkeys : (cache.lru.erase checksum ++ [(checksum, size)]).keys = (cache.lru.erase checksum).keys ++ [checksum] := by
      simp [Dict.keys]
    dsimp only
    rw [hkeys, Dict.keys_erase]
    refine List.nodup_append.2 ⟨h.filter _, List.nodup_singleton _, ?_⟩
    intro a ha b hb
    rw [List.mem_singleton.1 hb]
    simpa using (List.mem_filter.1 ha).2

theorem dir_moveToEnd : (cache.moveToEnd checksum).dir = cache.dir := by
  unfold HydrationCache.moveToEnd
  split <;> rfl

theorem refs_moveToEnd : (cache.moveToEnd checksum).refs = cache.refs := by
  unfold HydrationCache.moveToEnd
  split <;> rfl

/-! ## What every operation keeps -/

/-- The order of use names exactly the entries on disk, with their sizes. -/
structure Sized (cache : HydrationCache) (resized : List String) : Prop where
  nodup : cache.lru.keys.Nodup
  indexed : ∀ checksum, (cache.lru.get? checksum).isSome = true ↔ IsEntryName checksum ∧ (cache.file? checksum).isSome = true
  sizes : ∀ checksum size file, cache.lru.get? checksum = some size → cache.file? checksum = some file →
    checksum ∉ resized → size = file.bytes.length
  placed : cache.dir.Placed

/-- And so does the index on disk. -/
structure Kept (cache : HydrationCache) (resized : List String) : Prop extends Sized cache resized where
  honest : cache.dir.Honest resized

theorem Sized.isEntryName (h : Sized cache resized) (hc : checksum ∈ cache.lru.keys) : IsEntryName checksum :=
  ((h.indexed checksum).1 (Dict.mem_keys_iff.1 hc)).1

/-- Only the order of use and the disk matter. -/
theorem Sized.congr {cache' : HydrationCache} (h : Sized cache resized) (hnodup : cache'.lru.keys.Nodup)
    (hlru : ∀ checksum, cache'.lru.get? checksum = cache.lru.get? checksum) (hdir : cache'.dir = cache.dir) :
    Sized cache' resized := by
  have hfile : ∀ checksum, cache'.file? checksum = cache.file? checksum := fun checksum => by
    rw [HydrationCache.file?, hdir]
    rfl
  refine ⟨hnodup, fun checksum => ?_, fun checksum size file hsize hf => ?_, hdir ▸ h.placed⟩
  · rw [hlru, hfile]
    exact h.indexed checksum
  · rw [hlru] at hsize
    rw [hfile] at hf
    exact h.sizes checksum size file hsize hf

theorem Kept.congr {cache' : HydrationCache} (h : Kept cache resized) (hnodup : cache'.lru.keys.Nodup)
    (hlru : ∀ checksum, cache'.lru.get? checksum = cache.lru.get? checksum) (hdir : cache'.dir = cache.dir) :
    Kept cache' resized :=
  ⟨h.toSized.congr hnodup hlru hdir, hdir ▸ h.honest⟩

/-- What is written to the index is the order of use. -/
theorem Sized.persistIndex (h : Sized cache resized) : Kept cache.persistIndex resized := by
  refine ⟨⟨h.nodup, h.indexed, h.sizes, h.placed⟩, ?_⟩
  intro entries hindex checksum size hmem hsafe file hfile
  obtain rfl := Index.items.inj (Option.some.inj hindex)
  obtain ⟨entry, hentry, heq⟩ := List.mem_map.1 hmem
  obtain ⟨rfl, hsize⟩ := IndexItem.entry.inj heq
  obtain rfl := Option.some.inj hsize
  have hget : cache.lru.get? entry.1 = some entry.2 := Dict.get?_of_mem h.nodup hentry
  exact ⟨((h.indexed entry.1).1 (by rw [hget]; rfl)).1, fun hresized => h.sizes entry.1 entry.2 file hget hfile hresized⟩

theorem file?_forget (h : isHidden checksum' = false) :
    (cache.forget checksum).file? checksum' = if checksum = checksum' then none else cache.file? checksum' := by
  unfold HydrationCache.forget
  rw [file?_unlink, if_neg (metaKey_ne h), file?_unlink]
  simp only [entryKey_inj]
  rfl

theorem get?_forget :
    (cache.forget checksum).lru.get? checksum' = if checksum = checksum' then none else cache.lru.get? checksum' :=
  Dict.get?_erase _ _ _

/-- A forgotten entry is gone from the order of use and from the disk. -/
theorem Sized.forget (h : Sized cache resized) (checksum : String) : Sized (cache.forget checksum) resized := by
  refine ⟨Dict.nodup_keys_erase h.nodup, fun checksum' => ?_, fun checksum' size file hsize hfile => ?_, ?_⟩
  · have hold := h.indexed checksum'
    rw [get?_forget]
    constructor
    · intro hsome
      split at hsome
      · cases hsome
      · rename_i hne
        obtain ⟨hname, hfile⟩ := hold.1 hsome
        rw [file?_forget hname.2.1, if_neg hne]
        exact ⟨hname, hfile⟩
    · rintro ⟨hname, hfile⟩
      rw [file?_forget hname.2.1] at hfile
      split at hfile
      · cases hfile
      · rename_i hne
        rw [if_neg hne]
        exact hold.2 ⟨hname, hfile⟩
  · rw [get?_forget] at hsize
    split at hsize
    · cases hsize
    · rename_i hne
      have hname := ((h.indexed checksum').1 (by rw [hsize]; rfl)).1
      rw [file?_forget hname.2.1, if_neg hne] at hfile
      exact h.sizes checksum' size file hsize hfile
  · intro file hfile
    exact h.placed file (List.mem_of_mem_filter (List.mem_of_mem_filter hfile))

theorem Sized.dropEntry (h : Sized cache resized) (checksum : String) : Kept (cache.dropEntry checksum) resized :=
  (h.forget checksum).persistIndex

/-- An entry that is written, and then counted as the newest, with its size. -/
theorem Sized.insert (h : Sized cache resized) (hname : IsEntryName checksum) (file record : File) :
    Sized (((cache.writeFile (entryKey checksum) file).writeFile (metaKey checksum) record).count checksum file.bytes.length)
      (resized.filter (· ≠ checksum)) := by
  have hplaced : ((cache.writeFile (entryKey checksum) file).writeFile (metaKey checksum) record).dir.Placed := by
    intro f hf hlen hseen
    rcases Dict.mem_set hf with hf | rfl
    · rcases Dict.mem_set hf with hf | rfl
      · exact h.placed f hf hlen hseen
      · exact ⟨rfl, hname.1⟩
    · rw [show (metaKey checksum).2 = checksum ++ ".meta.json" from rfl, isHidden_meta] at hseen
      cases hseen
  have hfile : ∀ checksum', isHidden checksum' = false →
      ((cache.writeFile (entryKey checksum) file).writeFile (metaKey checksum) record).file? checksum' =
        if checksum = checksum' then some file else cache.file? checksum' := by
    intro checksum' hseen
    rw [file?_writeFile, if_neg (metaKey_ne hseen), file?_writeFile]
    simp only [entryKey_inj]
  suffices hsized : Sized { (cache.writeFile (entryKey checksum) file).writeFile (metaKey checksum) record with
      lru := cache.lru.set checksum file.bytes.length } (resized.filter (· ≠ checksum)) from
    hsized.congr (nodup_moveToEnd (Dict.nodup_keys_set h.nodup)) (fun _ => get?_moveToEnd) dir_moveToEnd
  refine ⟨Dict.nodup_keys_set h.nodup, fun checksum' => ?_, fun checksum' size f hsize hf hresized => ?_, hplaced⟩
  · show ((cache.lru.set checksum file.bytes.length).get? checksum').isSome = true ↔ IsEntryName checksum' ∧
      (((cache.writeFile (entryKey checksum) file).writeFile (metaKey checksum) record).file? checksum').isSome = true
    rw [Dict.get?_set]
    by_cases hc : checksum = checksum'
    · subst hc
      rw [hfile checksum hname.2.1]
      simp [hname]
    · rw [if_neg hc, h.indexed checksum']
      refine and_congr_right fun hname' => ?_
      rw [hfile checksum' hname'.2.1, if_neg hc]
  · replace hsize : (cache.lru.set checksum file.bytes.length).get? checksum' = some size := hsize
    replace hf : ((cache.writeFile (entryKey checksum) file).writeFile (metaKey checksum) record).file? checksum' = some f := hf
    rw [Dict.get?_set] at hsize
    by_cases hc : checksum = checksum'
    · subst hc
      rw [if_pos rfl] at hsize
      rw [hfile checksum hname.2.1, if_pos rfl] at hf
      rw [← Option.some.inj hf, ← Option.some.inj hsize]
    · rw [if_neg hc] at hsize
      have hname' := ((h.indexed checksum').1 (by rw [hsize]; rfl)).1
      rw [hfile checksum' hname'.2.1, if_neg hc] at hf
      refine h.sizes checksum' size f hsize hf fun hmem => hresized (List.mem_filter.2 ⟨hmem, ?_⟩)
      simpa using Ne.symm hc

/-! ## The budget -/

theorem Sized.cacheKey_eq (h : Sized cache resized) (hc : checksum ∈ cache.lru.keys) :
    HydrationCache.cacheKey checksum = .ok (entryKey checksum) := if_pos (h.isEntryName hc).1

/-- What the loop of the budget leaves: the entries before the newest are pinned, if the budget is not kept. -/
theorem evictOldest_spec {budget : Int} {todo : List String} {cache : HydrationCache} {pinned tail : List String}
    (h : Sized cache resized) (hkeys : cache.lru.keys = pinned ++ todo ++ tail)
    (hpinned : ∀ checksum ∈ pinned, 0 < cache.openCount checksum) :
    ∃ cache', HydrationCache.evictOldest budget todo cache = (.ok (), cache') ∧ Sized cache' resized ∧
      (Kept cache resized → Kept cache' resized) ∧ cache'.maxBytes = cache.maxBytes ∧ cache'.refs = cache.refs ∧
      (cache'.usedBytes ≤ budget ∨
        ∃ pinned, cache'.lru.keys = pinned ++ tail ∧ ∀ checksum ∈ pinned, 0 < cache'.openCount checksum) := by
  induction todo generalizing cache pinned with
  | nil =>
    refine ⟨cache, rfl, h, id, rfl, rfl, .inr ⟨pinned, ?_, hpinned⟩⟩
    rw [hkeys, List.append_nil]
  | cons checksum todo ih =>
    unfold HydrationCache.evictOldest
    split
    · rename_i hbudget
      exact ⟨cache, rfl, h, id, rfl, rfl, .inl hbudget⟩
    · split
      · rename_i hopen
        refine ih h (show cache.lru.keys = pinned ++ [checksum] ++ todo ++ tail by simp [hkeys]) ?_
        intro checksum' hmem
        rcases List.mem_append.1 hmem with hmem | hmem
        · exact hpinned checksum' hmem
        · rw [List.mem_singleton.1 hmem]
          exact hopen
      · rename_i hopen
        have hmem : checksum ∈ cache.lru.keys := by simp [hkeys]
        have hevict : cache.evict checksum = (.ok (), cache.dropEntry checksum) := by
          unfold HydrationCache.evict
          rw [if_neg hopen, h.cacheKey_eq hmem]
        have hdropped := h.dropEntry checksum
        -- the keys are distinct, so the dropped one stands where it is dropped from only
        have hkeys' : cache.lru.keys = pinned ++ checksum :: (todo ++ tail) := by simp [hkeys]
        have hout : ∀ other ∈ pinned ++ (todo ++ tail), other ≠ checksum := by
          rintro other hother rfl
          exact (List.nodup_cons.1 (List.nodup_middle.1 (hkeys' ▸ h.nodup))).1 hother
        have hrest : (cache.dropEntry checksum).lru.keys = pinned ++ todo ++ tail := by
          have herase : (cache.dropEntry checksum).lru.keys = cache.lru.keys.filter fun other => other ≠ checksum :=
            Dict.keys_erase _ _
          rw [herase, hkeys', List.filter_append, List.filter_cons_of_neg (by simp), ← List.filter_append,
            List.filter_eq_self.2 fun other hother => by simpa using hout other hother, List.append_assoc]
        obtain ⟨cache', hloop, hsized, hkept, hmax, hrefs, hleft⟩ := ih hdropped.toSized hrest hpinned
        refine ⟨cache', ?_, hsized, fun _ => hkept hdropped, hmax, hrefs, hleft⟩
        rw [hevict]
        exact hloop

/-- After the budget is looked at, it is kept, or every entry but the newest is pinned. -/
theorem enforceBudget_spec (h : Sized cache resized) :
    ∃ cache', cache.enforceBudget = (.ok (), cache') ∧ Sized cache' resized ∧ (Kept cache resized → Kept cache' resized) ∧
      cache'.maxBytes = cache.maxBytes ∧ cache'.refs = cache.refs ∧ CacheRun.WithinBudget cache' := by
  unfold HydrationCache.enforceBudget
  cases hmax : cache.maxBytes with
  | none =>
    refine ⟨cache, rfl, h, id, hmax, rfl, fun budget hbudget => ?_⟩
    rw [hmax] at hbudget
    cases hbudget
  | some budget =>
    have hkeys : cache.lru.keys = [] ++ cache.lru.keys.dropLast ++ cache.lru.keys.getLast?.toList := by
      rcases List.eq_nil_or_concat cache.lru.keys with hnil | ⟨init, last, hlast⟩
      · simp [hnil]
      · simp [hlast]
    obtain ⟨cache', hloop, hsized, hkept, hmax', hrefs, hleft⟩ := evictOldest_spec h hkeys (by simp)
    refine ⟨cache', hloop, hsized, hkept, hmax'.trans hmax, hrefs, fun budget' hbudget' => ?_⟩
    obtain rfl : budget = budget' := Option.some.inj ((hmax'.trans hmax).symm.trans hbudget')
    refine hleft.imp_right ?_
    rintro ⟨pinned, hkeys', hpinned⟩ checksum hmem
    refine hpinned checksum ?_
    rw [hkeys'] at hmem
    cases hlast : cache.lru.keys.getLast? with
    | none =>
      rw [hlast] at hmem
      simp only [Option.toList_none, List.append_nil] at hmem
      exact (List.dropLast_sublist _).subset hmem
    | some last =>
      rw [hlast] at hmem
      simpa using hmem

/-- An entry that was just written is counted, and the budget is looked at. -/
theorem track_spec (h : Sized cache resized) (hname : IsEntryName checksum) (file record : File) :
    ∃ cache', ((cache.writeFile (entryKey checksum) file).writeFile (metaKey checksum) record).track checksum file.bytes.length =
        (.ok (), cache') ∧ Kept cache' (resized.filter (· ≠ checksum)) ∧ CacheRun.WithinBudget cache' := by
  obtain ⟨cache', henforce, hsized, -, -, -, hbudget⟩ := enforceBudget_spec (h.insert hname file record)
  refine ⟨cache'.persistIndex, ?_, hsized.persistIndex, hbudget⟩
  unfold HydrationCache.track
  rw [henforce]

/-! ## Opening -/

/-- What the index says of a file that is there. -/
def Says (dir : Directory) (resized : List String) (lru : Dict String Int) : Prop :=
  lru.keys.Nodup ∧ ∀ checksum size, lru.get? checksum = some size → IsEntryName checksum ∧
    ∃ file, dir.files.get? (entryKey checksum) = some file ∧ (checksum ∉ resized → size = file.bytes.length)

theorem says_nil (dir : Directory) : Says dir resized [] := ⟨List.nodup_nil, nofun⟩

theorem Says.set {dir : Directory} {lru : Dict String Int} (h : Says dir resized lru) {size : Int} {file : File}
    (hname : IsEntryName checksum) (hfile : dir.files.get? (entryKey checksum) = some file)
    (hsize : checksum ∉ resized → size = file.bytes.length) : Says dir resized (lru.set checksum size) := by
  refine ⟨Dict.nodup_keys_set h.1, fun checksum' size' hget => ?_⟩
  rw [Dict.get?_set] at hget
  by_cases hc : checksum = checksum'
  · subst hc
    rw [if_pos rfl] at hget
    exact ⟨hname, file, hfile, Option.some.inj hget ▸ hsize⟩
  · rw [if_neg hc] at hget
    exact h.2 checksum' size' hget

/-- An index that is honest is read as such. -/
theorem says_readIndex {dir : Directory} (h : dir.Honest resized) : Says dir resized (HydrationCache.readIndex dir) := by
  unfold HydrationCache.readIndex
  split
  · exact says_nil dir
  · exact says_nil dir
  · rename_i entries hindex
    cases hread : entries.foldlM (HydrationCache.readItem dir) [] with
    | none => exact says_nil dir
    | some lru =>
      refine foldlM_some_keeps (Says dir resized) hread (says_nil dir) ?_
      intro lru item lru' hitem hlru hstep
      cases item with
      | unnamed => exact Option.some.inj hstep ▸ hlru
      | malformed => cases hstep
      | entry checksum size =>
        unfold HydrationCache.readItem HydrationCache.cacheKey at hstep
        by_cases hsafe : isSafe checksum = true
        · simp only [hsafe, if_true] at hstep
          cases hfile : dir.files.get? (entryKey checksum) with
          | none =>
            rw [hfile] at hstep
            exact Option.some.inj hstep ▸ hlru
          | some file =>
            rw [hfile] at hstep
            obtain ⟨n, rfl, rfl⟩ := Option.map_eq_some_iff.1 hstep
            obtain ⟨hname, hsize⟩ := h entries hindex checksum n hitem hsafe file hfile
            exact hlru.set hname hfile hsize
        · simp only [hsafe] at hstep
          cases hstep

/-- The scan adds what the index does not name. -/
def scanned (lru : Dict String Int) (entry : Key × File) : Dict String Int :=
  if (lru.get? entry.1.2).isSome then lru else lru.set entry.1.2 entry.2.bytes.length

theorem isSome_scanned {lru : Dict String Int} {entry : Key × File} :
    ((scanned lru entry).get? checksum).isSome = true ↔ (lru.get? checksum).isSome = true ∨ entry.1.2 = checksum := by
  unfold scanned
  split
  · rename_i hthere
    constructor
    · exact .inl
    · rintro (h | rfl)
      · exact h
      · exact hthere
  · rw [Dict.get?_set]
    by_cases hc : entry.1.2 = checksum <;> simp [hc]

theorem isSome_foldl_scanned {entries : Dict Key File} {lru : Dict String Int} :
    ((entries.foldl scanned lru).get? checksum).isSome = true ↔
      (lru.get? checksum).isSome = true ∨ ∃ entry ∈ entries, entry.1.2 = checksum := by
  induction entries generalizing lru with
  | nil => simp
  | cons entry entries ih =>
    rw [List.foldl_cons, ih, isSome_scanned]
    simp [or_assoc]

theorem says_foldl_scanned {dir : Directory} {entries : Dict Key File} {lru : Dict String Int} (h : Says dir resized lru)
    (hentries : ∀ entry ∈ entries, IsEntryName entry.1.2 ∧ dir.files.get? (entryKey entry.1.2) = some entry.2) :
    Says dir resized (entries.foldl scanned lru) := by
  induction entries generalizing lru with
  | nil => exact h
  | cons entry entries ih =>
    refine ih ?_ fun other hother => hentries other (List.mem_cons_of_mem _ hother)
    unfold scanned
    split
    · exact h
    · obtain ⟨hname, hfile⟩ := hentries entry List.mem_cons_self
      exact h.set hname hfile fun _ => rfl

theorem mem_scan {dir : Directory} {entry : Key × File} :
    entry ∈ HydrationCache.scan dir ↔ entry ∈ dir.files ∧ entry.1.1.length = 2 ∧ isHidden entry.1.2 = false := by
  simp [HydrationCache.scan, List.mem_insertionSort]

theorem length_take_two {checksum : String} : (entryKey checksum).1.length = 2 ↔ 2 ≤ checksum.length := by
  simp [entryKey, String.length_ofList, String.length_toList]

/-- The cache that is opened on a directory has its entries in the order of use. -/
theorem kept_loadIndex {dir : Directory} (hplaced : dir.Placed) (hhonest : dir.Honest resized) (maxBytes : Option Int) :
    Kept { maxBytes, lru := HydrationCache.loadIndex dir, dir } resized := by
  have hscan : ∀ entry ∈ HydrationCache.scan dir,
      IsEntryName entry.1.2 ∧ dir.files.get? (entryKey entry.1.2) = some entry.2 := by
    intro entry hentry
    obtain ⟨hmem, hlen, hseen⟩ := mem_scan.1 hentry
    obtain ⟨hkey, hsafe⟩ := hplaced entry hmem hlen hseen
    refine ⟨⟨hsafe, hseen, ?_⟩, ?_⟩
    · rw [hkey] at hlen
      exact length_take_two.1 hlen
    · rw [← hkey]
      exact Dict.get?_of_mem dir.distinct hmem
  have hsaid : Says dir resized (HydrationCache.loadIndex dir) := says_foldl_scanned (says_readIndex hhonest) hscan
  refine ⟨⟨hsaid.1, fun checksum => ⟨fun hget => ?_, fun ⟨hname, hfile⟩ => ?_⟩, fun checksum size file hsize hfile => ?_,
    hplaced⟩, hhonest⟩
  · obtain ⟨size, hsize⟩ := Option.isSome_iff_exists.1 hget
    obtain ⟨hname, file, hfile, -⟩ := hsaid.2 checksum size hsize
    exact ⟨hname, Option.isSome_iff_exists.2 ⟨file, hfile⟩⟩
  · obtain ⟨file, hfile⟩ := Option.isSome_iff_exists.1 hfile
    refine isSome_foldl_scanned.2 (.inr ⟨(entryKey checksum, file), mem_scan.2 ⟨Dict.mem_of_get? hfile, ?_, hname.2.1⟩, rfl⟩)
    exact length_take_two.2 hname.2.2
  · obtain ⟨-, file', hfile', hsaid⟩ := hsaid.2 checksum size hsize
    obtain rfl : file' = file := Option.some.inj (hfile'.symm.trans hfile)
    exact hsaid

end

/-! ## One operation -/

variable {lib : Libraries} {run : CacheRun} {checksum : String}

/-- What an operation that may insert an entry leaves. -/
def Inserts (run : CacheRun) (checksum : String) (done : Except Exn Unit × HydrationCache) : Prop :=
  (done.1 ≠ .ok () ∧ Kept done.2 run.resized) ∨
    (done.1 = .ok () ∧ Kept done.2 (run.resized.filter (· ≠ checksum)) ∧ CacheRun.WithinBudget done.2)

theorem Inserts.kept {done : Except Exn Unit × HydrationCache} (h : Inserts run checksum done) :
    Kept (run.inserted checksum done).2.cache (run.inserted checksum done).2.resized ∧
      ((run.inserted checksum done).1 = .ok () → CacheRun.WithinBudget (run.inserted checksum done).2.cache) := by
  unfold CacheRun.inserted
  rcases h with ⟨hfailed, hkept⟩ | ⟨hok, hkept, hbudget⟩
  · simp only [hfailed, if_false]
    exact ⟨hkept, fun hok => hok.elim⟩
  · simp only [hok, if_true]
    exact ⟨hkept, fun _ => hbudget⟩

/-- A file that is written with its integrity record is inserted. -/
theorem inserts_file (h : Kept run.cache run.resized) (hname : IsEntryName checksum) (data : Bytes) (now : Nat) :
    Inserts run checksum
      (((run.cache.writeFile (entryKey checksum) { bytes := data, mtimeNs := now }).writeMeta lib checksum
        { bytes := data, mtimeNs := now } now).track checksum data.length) := by
  obtain ⟨cache', htrack, hkept, hbudget⟩ := track_spec h.toSized hname { bytes := data, mtimeNs := now }
    { bytes := lib.dumps (HydrationCache.recordOf lib checksum { bytes := data, mtimeNs := now }), mtimeNs := now }
  unfold HydrationCache.writeMeta
  rw [htrack]
  exact .inr ⟨rfl, hkept, hbudget⟩

theorem inserts_store (h : Kept run.cache run.resized) {data : Bytes} {now : Nat} {fault : Option HydrationCache.StoreFault}
    (hclean : run.Clean lib (.store checksum data now fault)) :
    Inserts run checksum (run.cache.store lib checksum data now fault) := by
  unfold HydrationCache.store HydrationCache.cacheKey
  by_cases hsafe : isSafe checksum = true
  · obtain ⟨hname, rfl⟩ := hclean hsafe
    simp only [hsafe, if_true]
    exact inserts_file h hname data now
  · rw [if_neg hsafe]
    exact .inl ⟨nofun, h⟩

theorem inserts_storeVerified (h : Kept run.cache run.resized) {staged : Option Bytes} {now : Nat}
    {fault : Option HydrationCache.StoreFault} (hclean : run.Clean lib (.storeVerified checksum staged now fault)) :
    Inserts run checksum (run.cache.storeVerified lib checksum staged now fault) := by
  have hunchanged : ∀ e : Exn, Inserts run checksum (.error e, run.cache) := fun e => .inl ⟨nofun, h⟩
  unfold HydrationCache.storeVerified HydrationCache.cacheKey
  by_cases hsafe : isSafe checksum = true
  · rw [if_pos hsafe]
    cases staged with
    | none => exact hunchanged _
    | some data =>
      by_cases hhash : lib.hexdigest data = checksum
      · obtain ⟨hname, hfault⟩ := hclean data rfl hhash hsafe
        cases fault with
        | none =>
          simp only [hhash, ne_eq, not_true_eq_false, if_false]
          exact inserts_file h hname data now
        | some fault =>
          cases fault with
          | atFile written => exact hunchanged _
          | atRecord => exact absurd rfl hfault
      · rcases fault with _ | _ | _
        · simp only [ne_eq, hhash, not_false_eq_true, if_true]
          exact hunchanged _
        · exact hunchanged _
        · simp only [ne_eq, hhash, not_false_eq_true, if_true]
          exact hunchanged _
  · rw [if_neg hsafe]
    exact hunchanged _

theorem kept_retrieve (h : Kept run.cache run.resized) (hclean : run.Clean lib (.retrieve checksum)) :
    Kept (run.cache.retrieve lib checksum).2 run.resized := by
  unfold HydrationCache.retrieve HydrationCache.cacheKey
  by_cases hsafe : isSafe checksum = true
  · simp only [hsafe, if_true]
    split
    · exact h
    · rename_i file hfile
      rw [if_neg (not_not.2 (hclean file hfile))]
      exact h
  · rw [if_neg hsafe]
    exact h

theorem kept_verifyEntry (h : Kept run.cache run.resized) : Kept (run.cache.verifyEntry lib checksum).2 run.resized := by
  unfold HydrationCache.verifyEntry
  split
  · exact h
  · split
    · exact h
    · exact h.toSized.dropEntry checksum

theorem kept_evict (h : Kept run.cache run.resized) : Kept (run.cache.evict checksum).2 run.resized := by
  unfold HydrationCache.evict HydrationCache.cacheKey
  split
  · exact h
  · by_cases hsafe : isSafe checksum = true
    · simp only [hsafe, if_true]
      exact h.toSized.dropEntry checksum
    · rw [if_neg hsafe]
      -- an unsafe name is in no order of use, so nothing is lost of it
      have habsent : checksum ∉ run.cache.lru.keys := fun hmem => hsafe (h.isEntryName hmem).1
      have hlru : run.cache.lru.erase checksum = run.cache.lru := by
        refine List.filter_eq_self.2 fun entry hentry => ?_
        simp only [ne_eq, decide_eq_true_eq]
        rintro rfl
        exact habsent (List.mem_map.2 ⟨entry, hentry, rfl⟩)
      have hpopped : { run.cache with lru := run.cache.lru.erase checksum } = run.cache := by rw [hlru]
      show Kept { run.cache with lru := run.cache.lru.erase checksum } run.resized
      rw [hpopped]
      exact h

theorem kept_acquire (h : Kept run.cache run.resized) : Kept (run.cache.acquire checksum) run.resized := by
  unfold HydrationCache.acquire
  exact h.congr (nodup_moveToEnd h.nodup) (fun _ => get?_moveToEnd) dir_moveToEnd

theorem kept_release (h : Kept run.cache run.resized) :
    (run.cache.release checksum).1 = .ok () ∧ Kept (run.cache.release checksum).2 run.resized ∧
      CacheRun.WithinBudget (run.cache.release checksum).2 := by
  have hunpin : Kept (run.cache.unpin checksum) run.resized := by
    unfold HydrationCache.unpin
    split
    · exact h.congr h.nodup (fun _ => rfl) rfl
    · exact h.congr h.nodup (fun _ => rfl) rfl
  obtain ⟨cache', henforce, -, hkept, -, -, hbudget⟩ := enforceBudget_spec hunpin.toSized
  unfold HydrationCache.release
  rw [henforce]
  exact ⟨rfl, hkept hunpin, hbudget⟩

/-- Opening a directory counts its entries and keeps the budget. -/
theorem kept_openDirectory {dir : Directory} {resized : List String} (hplaced : dir.Placed) (hhonest : dir.Honest resized)
    (maxBytes : Option Int) : Kept (HydrationCache.openDirectory maxBytes dir).2 resized := by
  obtain ⟨cache', henforce, -, hkept, -⟩ := enforceBudget_spec (kept_loadIndex hplaced hhonest maxBytes).toSized
  unfold HydrationCache.openDirectory
  rw [henforce]
  exact hkept (kept_loadIndex hplaced hhonest maxBytes)

/-- Damage changes the bytes of a file, and the size is remembered to be another. -/
theorem kept_damage (h : Kept run.cache run.resized) (key : Key) (file : File) :
    Kept (run.damaged key file).cache (run.damaged key file).resized := by
  unfold CacheRun.damaged
  cases hold : run.cache.dir.files.get? key with
  | none => exact h
  | some old =>
    have hcases : ∀ {checksum f}, (run.cache.writeFile key file).file? checksum = some f →
        (key = entryKey checksum ∧ f = file) ∨ run.cache.file? checksum = some f := by
      intro checksum f hf
      rw [file?_writeFile] at hf
      split at hf
      · rename_i hkey
        exact .inl ⟨hkey, (Option.some.inj hf).symm⟩
      · exact .inr hf
    have hsome : ∀ checksum, ((run.cache.writeFile key file).file? checksum).isSome = (run.cache.file? checksum).isSome := by
      intro checksum
      rw [file?_writeFile]
      split
      · rename_i hkey
        rw [HydrationCache.file?, ← hkey, hold]
        rfl
      · rfl
    -- a size that was right is right still, or the entry is now among the resized
    have hsize : ∀ {checksum f} {size : Int}, (run.cache.writeFile key file).file? checksum = some f →
        (∀ g, run.cache.file? checksum = some g → checksum ∉ run.resized → size = g.bytes.length) →
        checksum ∉ (if key = entryKey key.2 ∧ old.bytes.length ≠ file.bytes.length then key.2 :: run.resized else run.resized) →
        size = f.bytes.length := by
      intro checksum f size hf hright hresized
      rcases hcases hf with ⟨rfl, rfl⟩ | hf
      · by_cases hlen : old.bytes.length = f.bytes.length
        · rw [if_neg (fun hboth => hboth.2 hlen)] at hresized
          rw [hright old hold hresized, hlen]
        · rw [if_pos ⟨rfl, hlen⟩] at hresized
          exact absurd List.mem_cons_self hresized
      · refine hright f hf fun hmem => hresized ?_
        split
        · exact List.mem_cons_of_mem _ hmem
        · exact hmem
    refine ⟨⟨h.nodup, fun checksum => ?_, fun checksum size f hget hf hresized => ?_, fun f hf hlen hseen => ?_⟩, ?_⟩
    · rw [hsome]
      exact h.indexed checksum
    · exact hsize hf (fun g hg => h.sizes checksum size g hget hg) hresized
    · rcases Dict.mem_set hf with hf | rfl
      · exact h.placed f hf hlen hseen
      · exact h.placed (key, old) (Dict.mem_of_get? hold) hlen hseen
    · intro entries hindex checksum size hmem hsafe f hf
      have hthere : ∃ g, run.cache.file? checksum = some g := by
        rw [← Option.isSome_iff_exists, ← hsome, HydrationCache.file?]
        exact Option.isSome_iff_exists.2 ⟨f, hf⟩
      obtain ⟨g, hg⟩ := hthere
      refine ⟨(h.honest entries hindex checksum size hmem hsafe g hg).1, hsize hf fun g hg => ?_⟩
      exact (h.honest entries hindex checksum size hmem hsafe g hg).2

theorem kept_loseRecord (h : Kept run.cache run.resized) : Kept (run.cache.unlink (metaKey checksum)) run.resized := by
  have hfile : ∀ {checksum'}, isHidden checksum' = false →
      (run.cache.unlink (metaKey checksum)).file? checksum' = run.cache.file? checksum' := by
    intro checksum' hseen
    rw [file?_unlink, if_neg (metaKey_ne hseen)]
  refine ⟨⟨h.nodup, fun checksum' => ?_, fun checksum' size f hget hf hresized => ?_, fun f hf => ?_⟩, ?_⟩
  · rw [show (run.cache.unlink (metaKey checksum)).lru = run.cache.lru from rfl, h.indexed checksum']
    exact and_congr_right fun hname => by rw [hfile hname.2.1]
  · have hname : IsEntryName checksum' := h.isEntryName (Dict.mem_keys_iff.2 (by
      rw [show run.cache.lru.get? checksum' = some size from hget]
      rfl))
    rw [hfile hname.2.1] at hf
    exact h.sizes checksum' size f hget hf hresized
  · exact h.placed f (List.mem_of_mem_filter hf)
  · intro entries hindex checksum' size hmem hsafe f hf
    have hold : run.cache.dir.files.get? (entryKey checksum') = some f := by
      have hget := Dict.get?_erase run.cache.dir.files (metaKey checksum) (entryKey checksum')
      rw [show (run.cache.dir.files.erase (metaKey checksum)).get? (entryKey checksum') = some f from hf] at hget
      split at hget
      · cases hget
      · exact hget.symm
    exact h.honest entries hindex checksum' size hmem hsafe f hold

/-- Every operation keeps the order of use, and those that look at the budget keep it too. -/
theorem kept_step (h : Kept run.cache run.resized) {op : CacheOp} (hclean : run.Clean lib op) :
    Kept (run.step lib op).2.cache (run.step lib op).2.resized ∧
      (op.rebalances = true → (run.step lib op).1 = .ok () → CacheRun.WithinBudget (run.step lib op).2.cache) := by
  cases op with
  | store checksum data now fault => exact ⟨(inserts_store h hclean).kept.1, fun _ => (inserts_store h hclean).kept.2⟩
  | storeVerified checksum staged now fault =>
    exact ⟨(inserts_storeVerified h hclean).kept.1, fun _ => (inserts_storeVerified h hclean).kept.2⟩
  | retrieve checksum => exact ⟨kept_retrieve h hclean, nofun⟩
  | readRange checksum offset length => exact ⟨h, nofun⟩
  | verifyEntry checksum => exact ⟨kept_verifyEntry h, nofun⟩
  | acquire checksum => exact ⟨kept_acquire h, nofun⟩
  | release checksum => exact ⟨(kept_release h).2.1, fun _ _ => (kept_release h).2.2⟩
  | evict checksum => exact ⟨kept_evict h, nofun⟩
  | reopen => exact ⟨kept_openDirectory h.placed h.honest _, nofun⟩
  | damage key file => exact ⟨kept_damage h key file, nofun⟩
  | loseRecord checksum => exact ⟨kept_loseRecord h, nofun⟩

/-- The entries on disk, with their sizes, are the order of use, if no size was altered. -/
theorem Sized.perm_entries {cache : HydrationCache} (h : Sized cache []) :
    cache.lru.Perm (cache.dir.entries.map fun file => (file.1.2, (file.2.bytes.length : Int))) := by
  have hentries : (cache.dir.entries.map fun file => (file.1.2, (file.2.bytes.length : Int))).Nodup := by
    refine List.Nodup.of_map Prod.fst ?_
    rw [List.map_map]
    have hkeys : (cache.dir.entries.map Prod.fst).Nodup := cache.dir.distinct.sublist (List.filter_sublist.map Prod.fst)
    have hnames : ∀ a ∈ cache.dir.entries, ∀ b ∈ cache.dir.entries, a.1.2 = b.1.2 → a.1 = b.1 := by
      intro a ha b hb hname
      have hkeyA := (of_decide_eq_true (List.mem_filter.1 ha).2).1
      have hkeyB := (of_decide_eq_true (List.mem_filter.1 hb).2).1
      rw [hkeyA, hkeyB, hname]
    refine List.pairwise_map.2 ((List.pairwise_map.1 hkeys).imp_of_mem ?_)
    intro a b ha hb hne hname
    exact hne (hnames a ha b hb hname)
  refine (List.perm_ext_iff_of_nodup (List.Nodup.of_map Prod.fst h.nodup) hentries).2 ?_
  rintro ⟨checksum, size⟩
  constructor
  · intro hmem
    have hget := Dict.get?_of_mem h.nodup hmem
    obtain ⟨hname, hthere⟩ := (h.indexed checksum).1 (by rw [hget]; rfl)
    obtain ⟨file, hfile⟩ := Option.isSome_iff_exists.1 hthere
    refine List.mem_map.2 ⟨(entryKey checksum, file), List.mem_filter.2 ⟨Dict.mem_of_get? hfile, ?_⟩, ?_⟩
    · exact decide_eq_true ⟨rfl, hname⟩
    · rw [h.sizes checksum size file hget hfile List.not_mem_nil]
      rfl
  · intro hmem
    obtain ⟨⟨key, file⟩, hfile, heq⟩ := List.mem_map.1 hmem
    obtain ⟨rfl, rfl⟩ := Prod.mk.inj heq
    obtain ⟨hkey, hname⟩ := of_decide_eq_true (List.mem_filter.1 hfile).2
    have hthere : cache.file? key.2 = some file := by
      rw [HydrationCache.file?, ← hkey]
      exact Dict.get?_of_mem cache.dir.distinct (List.mem_of_mem_filter hfile)
    obtain ⟨size, hget⟩ := Option.isSome_iff_exists.1 ((h.indexed key.2).2 ⟨hname, by rw [hthere]; rfl⟩)
    rw [← h.sizes key.2 size file hget hthere List.not_mem_nil]
    exact Dict.mem_of_get? hget

theorem Sized.represents (h : Sized run.cache run.resized) : run.Represents := by
  refine ⟨h.nodup, fun checksum => ?_, h.sizes, fun hnone => ?_⟩
  · rw [Dict.mem_keys_iff]
    exact h.indexed checksum
  · rw [hnone] at h
    have hsum := (h.perm_entries.map Prod.snd).sum_eq
    rw [List.map_map] at hsum
    exact hsum

end CacheAux

open CacheAux

/-- **The order of use is the disk, and the budget is kept.** However a cache is used, closed, opened again and damaged, the order
of use names exactly the entries on disk, with their sizes, and an insertion or a release ends within the budget or with every
entry but the newest pinned, as long as every retrieved entry hashes to its name, no store is cut between the file and the order
of use, and no name hides from the scan of the directory. -/
theorem cache_represents (lib : Libraries) (maxBytes : Option Int) (dir : Directory) (hplaced : dir.Placed)
    (hhonest : dir.Honest []) (ops : List CacheOp)
    (hclean : (CacheRun.system lib maxBytes dir).Meets (CacheRun.Clean lib) (CacheRun.system lib maxBytes dir).init ops) :
    (CacheRun.reach lib maxBytes dir ops).Represents ∧
      ∀ op, (CacheRun.reach lib maxBytes dir ops).Clean lib op → op.rebalances = true →
        ((CacheRun.reach lib maxBytes dir ops).step lib op).1 = .ok () →
        CacheRun.WithinBudget ((CacheRun.reach lib maxBytes dir ops).step lib op).2.cache := by
  have hkept : Kept (CacheRun.reach lib maxBytes dir ops).cache (CacheRun.reach lib maxBytes dir ops).resized :=
    Automaton.Meets.keeps (I := fun run : CacheRun => Kept run.cache run.resized)
      (fun run op hrun hop => (kept_step hrun hop).1) hclean (kept_openDirectory hplaced hhonest maxBytes)
  exact ⟨hkept.represents, fun op hop => (kept_step hkept hop).2⟩

/-- SHA-256 of the letters `a` and `b`; other texts get a digest of zeros. -/
def letterLibraries : Libraries where
  digest data :=
    if data = [97] then
      [0xca, 0x97, 0x81, 0x12, 0xca, 0x1b, 0xbd, 0xca, 0xfa, 0xc2, 0x31, 0xb3, 0x9a, 0x23, 0xdc, 0x4d,
        0xa7, 0x86, 0xef, 0xf8, 0x14, 0x7c, 0x4e, 0x72, 0xb9, 0x80, 0x77, 0x85, 0xaf, 0xee, 0x48, 0xbb]
    else if data = [98] then
      [0x3e, 0x23, 0xe8, 0x16, 0x00, 0x39, 0x59, 0x4a, 0x33, 0x89, 0x4f, 0x65, 0x64, 0xe1, 0xb1, 0x34,
        0x8b, 0xbd, 0x7a, 0x00, 0x88, 0xd4, 0x2c, 0x4a, 0xcb, 0x73, 0xee, 0xae, 0xd5, 0x9c, 0x00, 0x9d]
    else List.replicate 32 0
  dumps _ := []
  loads _ := none

def letterA : String := "ca978112ca1bbdcafac231b39a23dc4da786eff8147c4e72b9807785afee48bb"

def letterB : String := "3e23e8160039594a33894f6564e1b1348bbd7a0088d42c4acb73eeaed59c009d"

/-- Two entries in room for one, the first pinned: the second is released and the first is retrieved. -/
def letterOps : List CacheOp :=
  [.storeVerified letterA (some [97]) 1 none, .acquire letterA, .storeVerified letterB (some [98]) 2 none, .retrieve letterA,
    .release letterA]

theorem meets_letterOps : (CacheRun.system letterLibraries (some 1) {}).Meets (CacheRun.Clean letterLibraries)
    (CacheRun.system letterLibraries (some 1) {}).init letterOps := by
  have hname : IsEntryName letterA ∧ IsEntryName letterB := by decide +kernel
  refine ⟨?_, trivial, ?_, ?_, trivial, trivial⟩
  · exact fun _ _ _ _ => ⟨hname.1, nofun⟩
  · exact fun _ _ _ _ => ⟨hname.2, nofun⟩
  · intro file hfile
    have hthere : (CacheRun.reach letterLibraries (some 1) {} (letterOps.take 3)).cache.file? letterA =
        some { bytes := [97], mtimeNs := 1 } := by decide +kernel
    rw [← Option.some.inj (hthere.symm.trans hfile)]
    decide +kernel

theorem cache_represents_letters :
    (CacheRun.reach letterLibraries (some 1) {} letterOps).Represents ∧
      CacheRun.WithinBudget (CacheRun.reach letterLibraries (some 1) {} (letterOps ++ [.release letterB])).cache := by
  obtain ⟨hrepresents, hbudget⟩ := cache_represents letterLibraries (some 1) {} (fun _ h => nomatch h) (fun _ h => nomatch h)
    letterOps meets_letterOps
  refine ⟨hrepresents, ?_⟩
  have hwithin := hbudget (.release letterB) trivial rfl (by decide +kernel)
  have hreach : (CacheRun.reach letterLibraries (some 1) {} (letterOps ++ [.release letterB])) =
      ((CacheRun.reach letterLibraries (some 1) {} letterOps).step letterLibraries (.release letterB)).2 := by decide +kernel
  rw [hreach]
  exact hwithin

/-- An entry is altered on disk and then retrieved: it is deleted, and stays in the order of use and in the used bytes. -/
theorem deleted_entry_stays_indexed :
    let ops : List CacheOp := [.storeVerified letterA (some [97]) 1 none, .damage (entryKey letterA) { bytes := [98], mtimeNs := 1 },
      .retrieve letterA]
    let run := CacheRun.reach letterLibraries (some 1) {} ops
    letterA ∈ run.cache.lru.keys ∧ run.cache.file? letterA = none ∧ run.cache.usedBytes = 1 ∧ run.cache.dir.entries = [] ∧
      ¬run.Represents := by
  intro ops run
  have hrun : letterA ∈ run.cache.lru.keys ∧ run.cache.file? letterA = none ∧ run.cache.usedBytes = 1 ∧
      run.cache.dir.entries = [] := by
    subst run ops
    decide +kernel
  refine ⟨hrun.1, hrun.2.1, hrun.2.2.1, hrun.2.2.2, fun h => ?_⟩
  have hthere := ((h.indexed letterA).1 hrun.1).2
  rw [hrun.2.1] at hthere
  cases hthere

end OpenBlade
