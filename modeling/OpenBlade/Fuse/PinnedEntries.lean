import Mathlib
import OpenBlade.Effects.Protocol
import OpenBlade.Fuse.CacheBudget
import OpenBlade.Fuse.Mount

/-!
# Pinned entries

Calls of the mount, the gateway, the hydrator and the cache in any interleaving. The reference count of an entry is the number of
open handles on it and of the pins that calls under way hold, always. An entry that stays pinned keeps its bytes, unless an
integrity check that failed deletes it, or a store puts other bytes in its place: neither looks at the reference count.
-/

namespace OpenBlade

open Effects Proc Cache

/-- A step of a call. -/
abbrev FuseStep : Type := Step FuseState FuseOp fun o => Except Exn o.Ans

namespace Pins

/-- The pins a call holds: those it took, or was given by a handle it closed, and has neither released nor handed to a handle. -/
def note (held : List String) : (o : FuseOp) → Except Exn o.Ans → List String
  | .acquire checksum, .ok _ => checksum :: held
  | .release checksum, _ => held.erase checksum
  | .issueHandle _ (some checksum), _ => held.erase checksum
  | .issueToken checksum, _ => held.erase checksum
  | .closeHandle _, .ok (some checksum) => checksum :: held
  | .closeToken _, .ok (some checksum) => checksum :: held
  | _, _ => held

/-- A call releases and hands on pins it holds. -/
def Allowed (held : List String) : FuseOp → Prop
  | .release checksum => checksum ∈ held
  | .issueHandle _ (some checksum) => checksum ∈ held
  | .issueToken checksum => checksum ∈ held
  | _ => True

end Pins

section statement

variable {ι : Type} [DecidableEq ι]

/-- The pins a call holds after some steps. -/
def pinsOf (i : ι) (steps : List (ι × FuseStep)) : List String :=
  (steps.filter fun x => x.1 = i).foldl (fun held x => Pins.note held x.2.op x.2.ans) []

/-- The handles that are open on an entry, of the mount and of the gateway. -/
def FuseState.openHandles (s : FuseState) (checksum : String) : Nat :=
  (s.handleChecksums.map Prod.snd).count checksum + (s.tokens.map Prod.snd).count checksum

/-- An entry that is pinned and stays so keeps its bytes. Damage from outside is no operation. -/
def Survives (st : FuseStep) : Prop :=
  match st.op with
  | .damage .. => True
  | _ => ∀ checksum file, isHidden checksum = false → 0 < st.pre.cache.openCount checksum → 0 < st.post.cache.openCount checksum →
      st.pre.cache.file? checksum = some file → ∃ file', st.post.cache.file? checksum = some file' ∧ file'.bytes = file.bytes

/-- What a handle of the mount was opened on, it keeps until it is closed. -/
def KeepsBuffers (st : FuseStep) : Prop :=
  ∀ handle data, st.pre.openFiles.get? handle = some data → st.op ≠ .closeHandle handle →
    st.post.openFiles.get? handle = some data

/-- An entry that is pinned is deleted by no failed check, and stored with the bytes it has only. -/
def Unharmed (st : FuseStep) : Prop :=
  match st.op with
  | .dropEntry checksum | .unlinkEntry checksum =>
    isHidden checksum = false → 0 < st.pre.cache.openCount checksum → st.pre.cache.file? checksum = none
  | .place checksum data =>
    isHidden checksum = false → isSafe checksum = true → 0 < st.pre.cache.openCount checksum →
      ∀ file, st.pre.cache.file? checksum = some file → data = file.bytes
  | _ => True

/-- What is asked of the steps of an interleaving and of the state it leads to. -/
structure PinsKept [Fintype ι] (steps : List (ι × FuseStep)) (s : FuseState) (ended : ι → Prop) : Prop where
  survives : ∀ x ∈ steps, Survives x.2
  buffers : ∀ x ∈ steps, KeepsBuffers x.2
  counts : ∀ checksum, s.cache.openCount checksum = s.openHandles checksum + ∑ i, (pinsOf i steps).count checksum
  released : ∀ i, ended i → pinsOf i steps = []

end statement

namespace PinsAux

/-! ## One step and the pinned entries -/

section cache

variable {cache cache' : HydrationCache} {checksum checksum' : String} {done : Except Exn Unit × HydrationCache}

theorem openCount_evict : (cache.evict checksum).2.refs = cache.refs := by
  unfold HydrationCache.evict
  split
  · rfl
  · split <;> rfl

/-- An eviction leaves a pinned entry where it is. -/
theorem file?_evict (hseen : isHidden checksum' = false) (hpinned : 0 < cache.openCount checksum') :
    (cache.evict checksum).2.file? checksum' = cache.file? checksum' := by
  unfold HydrationCache.evict
  split
  · rfl
  · rename_i hopen
    split
    · rfl
    · have hne : checksum ≠ checksum' := by
        rintro rfl
        exact hopen hpinned
      exact (CacheAux.file?_forget hseen).trans (if_neg hne)

theorem evictOldest_pinned {budget : Int} {todo : List String} {cache : HydrationCache} :
    (HydrationCache.evictOldest budget todo cache).2.refs = cache.refs ∧
      ∀ checksum, isHidden checksum = false → 0 < cache.openCount checksum →
        (HydrationCache.evictOldest budget todo cache).2.file? checksum = cache.file? checksum := by
  induction todo generalizing cache with
  | nil => exact ⟨rfl, fun _ _ _ => rfl⟩
  | cons oldest todo ih =>
    unfold HydrationCache.evictOldest
    split
    · exact ⟨rfl, fun _ _ _ => rfl⟩
    · split
      · exact ih
      · have hrefs : (cache.evict oldest).2.refs = cache.refs := openCount_evict
        have hfile : ∀ checksum, isHidden checksum = false → 0 < cache.openCount checksum →
            (cache.evict oldest).2.file? checksum = cache.file? checksum := fun _ => file?_evict
        cases hevict : cache.evict oldest with
        | mk result evicted =>
          rw [hevict] at hrefs hfile
          cases result with
          | error e => exact ⟨hrefs, hfile⟩
          | ok u =>
            have hcount : ∀ checksum, evicted.openCount checksum = cache.openCount checksum := fun checksum => by
              unfold HydrationCache.openCount
              rw [show evicted.refs = cache.refs from hrefs]
            refine ⟨ih.1.trans hrefs, fun checksum hseen hpinned => ?_⟩
            exact (ih.2 checksum hseen (by rw [hcount]; exact hpinned)).trans (hfile checksum hseen hpinned)

theorem enforceBudget_pinned :
    cache.enforceBudget.2.refs = cache.refs ∧ ∀ checksum, isHidden checksum = false → 0 < cache.openCount checksum →
      cache.enforceBudget.2.file? checksum = cache.file? checksum := by
  unfold HydrationCache.enforceBudget
  split
  · exact ⟨rfl, fun _ _ _ => rfl⟩
  · exact evictOldest_pinned

theorem track_pinned {size : Nat} :
    (cache.track checksum size).2.refs = cache.refs ∧ ∀ checksum', isHidden checksum' = false → 0 < cache.openCount checksum' →
      (cache.track checksum size).2.file? checksum' = cache.file? checksum' := by
  have hcount : (cache.count checksum size).refs = cache.refs := CacheAux.refs_moveToEnd
  have hdir : (cache.count checksum size).dir = cache.dir := CacheAux.dir_moveToEnd
  have hopen : ∀ checksum', (cache.count checksum size).openCount checksum' = cache.openCount checksum' := fun checksum' => by
    unfold HydrationCache.openCount
    rw [hcount]
  have hfile : ∀ checksum', (cache.count checksum size).file? checksum' = cache.file? checksum' := fun checksum' => by
    unfold HydrationCache.file?
    rw [hdir]
  obtain ⟨hrefs, hkept⟩ : (cache.count checksum size).enforceBudget.2.refs = (cache.count checksum size).refs ∧
      ∀ checksum', isHidden checksum' = false → 0 < (cache.count checksum size).openCount checksum' →
        (cache.count checksum size).enforceBudget.2.file? checksum' = (cache.count checksum size).file? checksum' :=
    enforceBudget_pinned
  unfold HydrationCache.track
  cases henforce : (cache.count checksum size).enforceBudget with
  | mk result enforced =>
    rw [henforce] at hrefs hkept
    have hpinned : ∀ checksum', isHidden checksum' = false → 0 < cache.openCount checksum' →
        enforced.file? checksum' = cache.file? checksum' := fun checksum' hseen hpos =>
      (hkept checksum' hseen (by rw [hopen]; exact hpos)).trans (hfile checksum')
    cases result with
    | error e => exact ⟨hrefs.trans hcount, hpinned⟩
    | ok u => exact ⟨hrefs.trans hcount, hpinned⟩

/-- The count of an entry when one pin of another is given back. -/
theorem openCount_unpin :
    (cache.unpin checksum).openCount checksum' = cache.openCount checksum' - if checksum = checksum' then 1 else 0 := by
  unfold HydrationCache.unpin
  split
  · rename_i hlast
    unfold HydrationCache.openCount at hlast ⊢
    rw [Dict.get?_erase]
    by_cases hc : checksum = checksum'
    · subst hc
      simp only [if_true, Option.getD_none]
      omega
    · simp [hc]
  · unfold HydrationCache.openCount
    rw [Dict.get?_set]
    by_cases hc : checksum = checksum'
    · subst hc
      simp
    · simp [hc]

theorem openCount_release :
    (cache.release checksum).2.openCount checksum' = cache.openCount checksum' - if checksum = checksum' then 1 else 0 := by
  rw [← openCount_unpin]
  unfold HydrationCache.release HydrationCache.openCount
  rw [enforceBudget_pinned.1]

theorem openCount_acquire :
    (cache.acquire checksum).openCount checksum' = cache.openCount checksum' + if checksum = checksum' then 1 else 0 := by
  have hrefs : (cache.acquire checksum).refs = cache.refs.set checksum (cache.openCount checksum + 1) := CacheAux.refs_moveToEnd
  unfold HydrationCache.openCount at hrefs ⊢
  rw [hrefs, Dict.get?_set]
  by_cases hc : checksum = checksum'
  · subst hc
    simp
  · simp [hc]

end cache

section step

variable {config : FuseConfig} {s : FuseState} {choice : FuseChoice}

/-- A step after which every entry that is pinned throughout holds its bytes. -/
theorem survives_of_file? {o : FuseOp}
    (h : ∀ checksum, isHidden checksum = false → 0 < s.cache.openCount checksum →
      0 < (s.exec config choice o).2.cache.openCount checksum →
      (s.exec config choice o).2.cache.file? checksum = s.cache.file? checksum) :
    Survives ((fuseMachine config).step s o choice) := by
  unfold Survives
  split
  · trivial
  · intro checksum file hseen hpinned hstill hfile
    exact ⟨file, (h checksum hseen hpinned hstill).trans hfile, rfl⟩

/-- A step that leaves the cache as it is. -/
theorem survives_of_cache {o : FuseOp} (h : (s.exec config choice o).2.cache = s.cache) :
    Survives ((fuseMachine config).step s o choice) :=
  survives_of_file? fun checksum _ _ _ => by rw [h]

theorem cache_guarded {α : Type} {checksum : String} {a : Except Exn α} : (s.guarded checksum (a, s)).2.cache = s.cache := by
  unfold FuseState.guarded
  split <;> rfl

/-- A step that may delete the file of an entry. -/
theorem survives_delete_iff {o : FuseOp} {checksum : String} {cache' : HydrationCache} (hop : ∀ key file, o ≠ .damage key file)
    (hpost : (s.exec config choice o).2.cache = cache') (hrefs : cache'.refs = s.cache.refs)
    (hgone : isHidden checksum = false → cache'.file? checksum = none)
    (hothers : ∀ checksum', isHidden checksum' = false → checksum ≠ checksum' → cache'.file? checksum' = s.cache.file? checksum') :
    Survives ((fuseMachine config).step s o choice) ↔
      (isHidden checksum = false → 0 < s.cache.openCount checksum → s.cache.file? checksum = none) := by
  have hcount : ∀ checksum', (s.exec config choice o).2.cache.openCount checksum' = s.cache.openCount checksum' := fun checksum' => by
    unfold HydrationCache.openCount
    rw [hpost, hrefs]
  constructor
  · intro h hseen hpinned
    cases hfile : s.cache.file? checksum with
    | none => rfl
    | some file =>
      have hsurvives : ∀ checksum file, isHidden checksum = false → 0 < s.cache.openCount checksum →
          0 < (s.exec config choice o).2.cache.openCount checksum → s.cache.file? checksum = some file →
          ∃ file', (s.exec config choice o).2.cache.file? checksum = some file' ∧ file'.bytes = file.bytes := by
        unfold Survives at h
        split at h
        · rename_i key file hdamage
          exact absurd hdamage (hop key file)
        · exact h
      obtain ⟨file', hfile', -⟩ := hsurvives checksum file hseen hpinned (by rw [hcount]; exact hpinned) hfile
      rw [hpost, hgone hseen] at hfile'
      cases hfile'
  · intro h
    refine survives_of_file? fun checksum' hseen hpinned _ => ?_
    rw [hpost]
    by_cases hc : checksum = checksum'
    · subst hc
      rw [hgone hseen, h hseen hpinned]
    · exact hothers checksum' hseen hc

/-- Of one step: pinned entries survive it if and only if it is not one of those that disturb. -/
theorem survives_iff (o : FuseOp) :
    Survives ((fuseMachine config).step s o choice) ↔ Unharmed ((fuseMachine config).step s o choice) := by
  cases o with
  | stat path | fileRecord path | isCached checksum | readRange checksum offset length | await path | callHydrator path
  | status path | openFile handle | closeHandle handle | issueToken checksum | closeToken token =>
    exact iff_of_true (survives_of_cache rfl) trivial
  | entryMatches checksum | readEntry checksum => exact iff_of_true (survives_of_cache cache_guarded) trivial
  | issueHandle data checksum => exact iff_of_true (survives_of_cache rfl) trivial
  | request path =>
    refine iff_of_true (survives_of_cache ?_) trivial
    simp only [FuseState.exec]
    split <;> rfl
  | entrySize checksum =>
    refine iff_of_true (survives_of_cache ?_) trivial
    simp only [FuseState.exec]
    split <;> rfl
  | acquire checksum =>
    refine iff_of_true (survives_of_file? fun checksum' _ _ _ => ?_) trivial
    have hdir : (s.cache.acquire checksum).dir = s.cache.dir := CacheAux.dir_moveToEnd
    simp only [FuseState.exec, HydrationCache.file?, hdir]
  | release checksum =>
    refine iff_of_true (survives_of_file? fun checksum' hseen _ hstill => ?_) trivial
    have hunpin : ∀ checksum', (s.cache.unpin checksum).file? checksum' = s.cache.file? checksum' := fun checksum' => by
      unfold HydrationCache.unpin
      split <;> rfl
    have hcount : (s.cache.release checksum).2.openCount checksum' = (s.cache.unpin checksum).openCount checksum' :=
      openCount_release.trans openCount_unpin.symm
    have hpos : 0 < (s.cache.unpin checksum).openCount checksum' := hcount ▸ hstill
    exact (enforceBudget_pinned.2 checksum' hseen hpos).trans (hunpin checksum')
  | evict checksum => exact iff_of_true (survives_of_file? fun checksum' hseen hpinned _ => file?_evict hseen hpinned) trivial
  | track checksum size =>
    exact iff_of_true (survives_of_file? fun checksum' hseen hpinned _ => track_pinned.2 checksum' hseen hpinned) trivial
  | writeMeta checksum =>
    refine iff_of_true (survives_of_file? fun checksum' hseen _ _ => ?_) trivial
    simp only [FuseState.exec]
    split
    · rfl
    · exact (CacheAux.file?_writeFile _ _).trans (if_neg (CacheAux.metaKey_ne hseen))
  | damage key file => exact iff_of_true trivial trivial
  | dropEntry checksum =>
    refine survives_delete_iff (fun _ _ h => by cases h) rfl rfl (fun hseen => ?_) fun checksum' hseen hne => ?_
    · exact (CacheAux.file?_forget hseen).trans (if_pos rfl)
    · exact (CacheAux.file?_forget hseen).trans (if_neg hne)
  | unlinkEntry checksum =>
    cases hfile : s.cache.file? checksum with
    | none =>
      refine iff_of_true (survives_of_cache ?_) fun _ _ => hfile
      simp only [FuseState.exec, hfile]
    | some file =>
      have hpost : (s.exec config choice (.unlinkEntry checksum)).2.cache = s.cache.unlink (entryKey checksum) := by
        simp only [FuseState.exec, hfile]
      refine survives_delete_iff (fun _ _ h => by cases h) hpost rfl (fun _ => ?_) fun checksum' _ hne => ?_
      · exact (CacheAux.file?_unlink _).trans (if_pos rfl)
      · exact (CacheAux.file?_unlink _).trans (if_neg fun h => hne (CacheAux.entryKey_inj.1 h))
  | place checksum data =>
    by_cases hsafe : isSafe checksum = true
    · have hpost : (s.exec config choice (.place checksum data)).2.cache =
          s.cache.writeFile (entryKey checksum) { bytes := data, mtimeNs := choice.now } := by
        simp only [FuseState.exec, FuseState.guarded, HydrationCache.cacheKey, hsafe, if_true]
      have hfile : ∀ checksum', (s.exec config choice (.place checksum data)).2.cache.file? checksum' =
          if checksum = checksum' then some { bytes := data, mtimeNs := choice.now } else s.cache.file? checksum' := by
        intro checksum'
        rw [hpost, CacheAux.file?_writeFile]
        simp only [CacheAux.entryKey_inj]
      have hcount : ∀ checksum', (s.exec config choice (.place checksum data)).2.cache.openCount checksum' =
          s.cache.openCount checksum' := fun checksum' => by rw [hpost]; rfl
      constructor
      · intro h hseen _ hpinned file hold
        have hstill : 0 < (s.exec config choice (.place checksum data)).2.cache.openCount checksum := by rwa [hcount]
        obtain ⟨file', hnew, hbytes⟩ := h checksum file hseen hpinned hstill hold
        have hnow := ((hfile checksum).trans (if_pos rfl)).symm.trans hnew
        rw [← hbytes, ← Option.some.inj hnow]
      · intro h checksum' file hseen hpinned _ hold
        by_cases hc : checksum = checksum'
        · subst hc
          exact ⟨_, (hfile checksum).trans (if_pos rfl), h hseen hsafe hpinned file hold⟩
        · exact ⟨file, (hfile checksum').trans ((if_neg hc).trans hold), rfl⟩
    · refine iff_of_true (survives_of_cache ?_) fun _ hsafe' => absurd hsafe' hsafe
      simp only [FuseState.exec, FuseState.guarded, HydrationCache.cacheKey, hsafe]
      rfl

end step

/-! ## What a call holds -/

section calls

variable {α β : Type}

/-- A procedure that follows the protocol and gives back every pin it takes, whether it ends or raises. -/
def Neutral (m : FuseM α) : Prop :=
  ∀ l held, wp (havoc Pins.note) (.protocol Pins.Allowed) m (fun _ _ held' => held' = held) (fun _ _ held' => held' = held) l held

theorem neutral_pure (a : α) : Neutral (pure a : FuseM α) := fun _ _ => rfl

theorem neutral_raise (e : Exn) : Neutral (raise e : FuseM α) := fun _ _ => rfl

theorem neutral_ofExcept (x : Except Exn α) : Neutral (ofExcept x : FuseM α) := by
  cases x with
  | ok a => exact neutral_pure a
  | error e => exact neutral_raise e

theorem Neutral.bind {m : FuseM α} {f : α → FuseM β} (hm : Neutral m) (hf : ∀ a, Neutral (f a)) : Neutral (m >>= f) := by
  intro l held
  rw [wp_bind]
  refine wp_mono (hm l held) ?_ fun _ _ _ h => h
  rintro a l' _ rfl
  exact hf a l' _

theorem Neutral.handle {m : FuseM α} {f : Exn → FuseM α} (hm : Neutral m) (hf : ∀ e, Neutral (f e)) :
    Neutral (Proc.handle m f) := by
  intro l held
  rw [wp_handle]
  refine wp_mono (hm l held) (fun _ _ _ h => h) ?_
  rintro e l' _ rfl
  exact hf e l' _

theorem Neutral.ite {c : Prop} [Decidable c] {m m' : FuseM α} (hm : Neutral m) (hm' : Neutral m') :
    Neutral (if c then m else m') := by
  split
  · exact hm
  · exact hm'

/-- Steps that take and give no pin. -/
def isPlain : FuseOp → Bool
  | .acquire _ | .release _ | .issueHandle .. | .issueToken _ | .closeHandle _ | .closeToken _ => false
  | _ => true

theorem neutral_fuse {o : FuseOp} (h : isPlain o = true) : Neutral (fuse o) := by
  intro l held
  have hnote : ∀ a, Pins.note held o a = held := by
    intro a
    cases o <;> first | rfl | cases h
  refine wp_follows ?_ (fun a => hnote _) fun e => hnote _
  cases o <;> first | trivial | cases h

theorem Neutral.after {o : FuseOp} {f : o.Ans → FuseM α} (h : isPlain o = true) (hf : ∀ a, Neutral (f a)) :
    Neutral (fuse o >>= f) := (neutral_fuse h).bind hf

/-- A pin is taken for a procedure, and given back when it ends or raises. -/
theorem wp_acquire {checksum : String} {N : Unit → Unit → List String → Prop} {E : Exn → Unit → List String → Prop} {l : Unit}
    {held : List String} (hok : N () l (checksum :: held)) (herr : ∀ e, E e l held) :
    wp (havoc Pins.note) (.protocol Pins.Allowed) (fuse (.acquire checksum)) N E l held :=
  wp_follows trivial (fun _ => hok) herr

theorem wp_release {checksum : String} {N : Unit → Unit → List String → Prop} {E : Exn → Unit → List String → Prop} {l : Unit}
    {held : List String} (hok : N () l held) (herr : ∀ e, E e l held) :
    wp (havoc Pins.note) (.protocol Pins.Allowed) (fuse (.release checksum)) N E l (checksum :: held) := by
  refine wp_follows List.mem_cons_self (fun _ => ?_) fun e => ?_
  · rw [show Pins.note (checksum :: held) (.release checksum) _ = (checksum :: held).erase checksum from rfl, List.erase_cons_head]
    exact hok
  · rw [show Pins.note (checksum :: held) (.release checksum) _ = (checksum :: held).erase checksum from rfl, List.erase_cons_head]
    exact herr e

theorem neutral_verifyEntry (checksum : String) : Neutral (verifyEntry checksum) := by
  refine Neutral.after rfl fun found => ?_
  refine Neutral.ite (neutral_pure true) ?_
  exact Neutral.after rfl fun _ => neutral_raise _

theorem neutral_retrieveEntry (lib : Libraries) (checksum : String) : Neutral (retrieveEntry lib checksum) := by
  refine Neutral.after rfl fun found => ?_
  cases found with
  | none => exact neutral_raise _
  | some data =>
    refine Neutral.ite ?_ (neutral_pure data)
    exact Neutral.after rfl fun _ => neutral_raise _

theorem neutral_storeVerified (lib : Libraries) (checksum : String) (staged : Option Bytes) :
    Neutral (storeVerified lib checksum staged) := by
  refine (neutral_ofExcept _).bind fun _ => ?_
  cases staged with
  | none => exact neutral_raise _
  | some data =>
    refine Neutral.ite (neutral_raise _) ?_
    refine Neutral.after rfl fun _ => ?_
    refine Neutral.after rfl fun _ => ?_
    exact Neutral.after rfl fun _ => neutral_fuse rfl

theorem neutral_storeEntry (checksum : String) (data : Bytes) : Neutral (storeEntry checksum data) := by
  refine Neutral.after rfl fun _ => ?_
  exact Neutral.after rfl fun _ => neutral_fuse rfl

theorem neutral_verifyCachedEntry (checksum : String) : Neutral (verifyCachedEntry checksum) := by
  refine Neutral.after rfl fun cached => ?_
  refine Neutral.ite ?_ (neutral_pure ())
  exact ((neutral_verifyEntry checksum).bind fun _ => neutral_pure ()).handle fun e => Neutral.ite (neutral_pure ()) (neutral_raise e)

theorem neutral_pinnedRead (path checksum : String) {read : FuseM α} (hread : Neutral read) :
    Neutral (pinnedRead path checksum read) := by
  intro l held
  unfold pinnedRead
  rw [wp_bind]
  refine wp_acquire ?_ fun _ => rfl
  rw [wp_ensure]
  refine wp_mono ((Neutral.after rfl fun _ => hread : Neutral (do fuse (.await path); read)) l (checksum :: held)) ?_ ?_
  · rintro a l' _ rfl
    exact wp_release rfl fun _ => rfl
  · rintro e l' _ rfl
    exact wp_release rfl fun _ => rfl

theorem neutral_mountHydrate (lib : Libraries) (path : String) : Neutral (mountHydrate lib path) := by
  refine Neutral.after rfl fun checksum => ?_
  refine (neutral_pinnedRead path checksum (neutral_retrieveEntry lib checksum)).handle fun e => ?_
  exact Neutral.ite (neutral_raise _) (Neutral.ite (neutral_raise _) (neutral_raise _))

theorem neutral_materialise (config : FuseConfig) (path : String) : Neutral (materialise config path) := by
  refine Neutral.after rfl fun record => ?_
  cases record with
  | none => exact neutral_raise _
  | some checksum =>
    refine Neutral.after rfl fun cached => ?_
    refine Neutral.ite ?_ ?_
    · exact (neutral_retrieveEntry config.lib checksum).handle fun e => Neutral.ite (neutral_raise _) (neutral_raise _)
    · cases config.mode with
      | none => exact neutral_raise _
      | callable => exact Neutral.handle (neutral_fuse rfl) fun _ => neutral_raise _
      | dataPlane => exact neutral_mountHydrate config.lib path

/-- What is done under a pin, which is given back when it raises. -/
theorem wp_underPin {checksum : String} {m : FuseM α} (hm : Neutral m) {N : α → Unit → List String → Prop}
    {E : Exn → Unit → List String → Prop} {l : Unit} {held : List String} (hok : ∀ a l', N a l' (checksum :: held))
    (herr : ∀ e l', E e l' held) :
    wp (havoc Pins.note) (.protocol Pins.Allowed)
      (Proc.handle m fun e => do
        fuse (.release checksum)
        raise e) N E l (checksum :: held) := by
  rw [wp_handle]
  refine wp_mono (hm l (checksum :: held)) ?_ ?_
  · rintro a l' _ rfl
    exact hok a l'
  · rintro e l' _ rfl
    rw [wp_bind]
    exact wp_release (herr e l') fun e' => herr e' l'

theorem neutral_mountOpen (config : FuseConfig) (path : String) (writes : Bool) : Neutral (mountOpen config path writes) := by
  refine Neutral.ite (neutral_raise _) (Neutral.after rfl fun stat => ?_)
  cases stat with
  | none => exact neutral_raise _
  | some isDir =>
    cases isDir with
    | true => exact neutral_raise _
    | false =>
      refine Neutral.after rfl fun record => ?_
      cases record with
      | none =>
        refine (neutral_materialise config path).bind fun data => ?_
        exact fun l held => wp_follows trivial (fun _ => rfl) fun _ => rfl
      | some checksum =>
        refine (neutral_verifyCachedEntry checksum).bind fun _ => ?_
        intro l held
        rw [wp_bind]
        refine wp_acquire ?_ fun _ => rfl
        rw [wp_bind]
        refine wp_underPin (neutral_materialise config path) (fun data l' => ?_) fun _ _ => rfl
        exact wp_follows List.mem_cons_self (fun _ => List.erase_cons_head _ _) fun _ => List.erase_cons_head _ _

theorem neutral_gatewayOpen (config : FuseConfig) (path : String) (waits : Bool) : Neutral (gatewayOpen config path waits) := by
  have hrest : Neutral (do
      let checksum ← fuse (.request path)
      fuse (.acquire checksum)
      let state ← Proc.handle
        (do
          if waits then
            let _ ← waitTicket config.lib path checksum
            fuse (.status path)
          else fuse (.status path))
        fun e => do
          fuse (.release checksum)
          raise e
      let token ← fuse (.issueToken checksum)
      pure (token, state)) := by
    refine Neutral.after rfl fun checksum l held => ?_
    have hstate : Neutral (do
        if waits then
          let _ ← waitTicket config.lib path checksum
          fuse (.status path)
        else fuse (.status path)) := by
      refine Neutral.ite ?_ (neutral_fuse rfl)
      exact (neutral_pinnedRead path checksum (neutral_retrieveEntry config.lib checksum)).bind fun _ => neutral_fuse rfl
    rw [wp_bind]
    refine wp_acquire ?_ fun _ => rfl
    rw [wp_bind]
    refine wp_underPin hstate (fun state l' => ?_) fun _ _ => rfl
    rw [wp_bind]
    exact wp_follows List.mem_cons_self (fun _ => List.erase_cons_head _ _) fun _ => List.erase_cons_head _ _
  refine Neutral.after rfl fun record => ?_
  cases record with
  | none => exact (neutral_pure ()).bind fun _ => hrest
  | some checksum => exact (neutral_verifyCachedEntry checksum).bind fun _ => hrest

theorem neutral_mountRelease (handle : Nat) : Neutral (mountRelease handle) := by
  intro l held
  unfold mountRelease
  rw [wp_bind]
  refine wp_follows trivial (fun checksum => ?_) fun _ => rfl
  cases checksum with
  | none => rfl
  | some checksum => exact wp_release rfl fun _ => rfl

theorem neutral_gatewayClose (token : Nat) : Neutral (gatewayClose token) := by
  intro l held
  unfold gatewayClose
  rw [wp_bind]
  refine wp_follows trivial (fun checksum => ?_) fun _ => rfl
  cases checksum with
  | none => rfl
  | some checksum => exact wp_release rfl fun _ => rfl

theorem neutral_mountRead (config : FuseConfig) (path : String) (size offset handle : Nat) :
    Neutral (mountRead config path size offset handle) := by
  refine Neutral.after rfl fun data => ?_
  cases data with
  | some data => exact neutral_pure _
  | none => exact (neutral_materialise config path).bind fun data => neutral_pure _

theorem neutral_gatewayEvict (path : String) : Neutral (gatewayEvict path) := by
  refine Neutral.after rfl fun record => ?_
  cases record with
  | none => exact neutral_pure false
  | some checksum =>
    exact (Neutral.after rfl fun _ => neutral_pure true).handle fun e => Neutral.ite (neutral_pure false) (neutral_raise e)

/-- Every call gives back the pins it takes, or hands them to a handle. -/
theorem neutral_body (config : FuseConfig) (call : FuseCall) : Neutral (call.body config) := by
  have hdiscard : ∀ {α : Type} {m : FuseM α}, Neutral m → Neutral (discard m) := fun hm => hm.bind fun _ => neutral_pure ()
  cases call with
  | mountOpen path writes => exact hdiscard (neutral_mountOpen config path writes)
  | mountRead path size offset handle => exact hdiscard (neutral_mountRead config path size offset handle)
  | mountRelease handle => exact neutral_mountRelease handle
  | gatewayOpen path waits => exact hdiscard (neutral_gatewayOpen config path waits)
  | gatewayReadRange path offset length =>
    exact hdiscard (Neutral.after rfl fun checksum => neutral_pinnedRead path checksum (neutral_fuse rfl))
  | gatewayClose token => exact neutral_gatewayClose token
  | gatewayEvict path => exact hdiscard (neutral_gatewayEvict path)
  | hydrate path =>
    exact hdiscard (Neutral.after rfl fun checksum =>
      neutral_pinnedRead path checksum (neutral_retrieveEntry config.lib checksum))
  | hydrated checksum staged => exact neutral_storeVerified config.lib checksum staged
  | store checksum data => exact neutral_storeEntry checksum data
  | verify checksum => exact hdiscard (neutral_verifyEntry checksum)
  | retrieve checksum => exact hdiscard (neutral_retrieveEntry config.lib checksum)
  | readRange checksum offset length => exact hdiscard (neutral_fuse rfl)
  | evict checksum => exact neutral_fuse rfl
  | damage key file => exact neutral_fuse rfl

end calls

/-! ## The balance of pins -/

section tables

variable {d : Dict Nat String} {k : Nat} {a b : String}

theorem count_values_set (h : k ∉ d.keys) :
    ((d.set k a).map Prod.snd).count b = (d.map Prod.snd).count b + if a = b then 1 else 0 := by
  rw [Dict.set_of_not_mem a h, List.map_append, List.count_append]
  simp [List.count_cons]

theorem count_values_erase (hn : d.keys.Nodup) :
    (d.map Prod.snd).count b = ((d.erase k).map Prod.snd).count b + if d.get? k = some b then 1 else 0 := by
  induction d with
  | nil => rfl
  | cons p d ih =>
    have hn' := List.nodup_cons.1 hn
    by_cases hp : p.1 = k
    · have herase : Dict.erase (p :: d) k = d := by
        refine (List.filter_cons_of_neg (by simp [hp])).trans (List.filter_eq_self.2 fun q hq => ?_)
        have hne : q.1 ≠ p.1 := fun h => hn'.1 (h ▸ List.mem_map_of_mem hq)
        simpa [← hp] using hne
      rw [herase, Dict.get?_cons, if_pos hp, List.map_cons, List.count_cons]
      simp
    · have herase : Dict.erase (p :: d) k = p :: Dict.erase d k := List.filter_cons_of_pos (by simp [hp])
      rw [herase, Dict.get?_cons, if_neg hp, List.map_cons, List.map_cons, List.count_cons, List.count_cons, ih hn'.2]
      omega

end tables

section balance

variable {config : FuseConfig} {s : FuseState} {choice : FuseChoice} {o : FuseOp} {held : List String}

/-- Handles and tokens are numbered upwards. -/
structure Fresh (s : FuseState) : Prop where
  openFiles : ∀ handle ∈ s.openFiles.keys, handle < s.nextHandle
  handles : ∀ handle ∈ s.handleChecksums.keys, handle < s.nextHandle
  tokens : ∀ token ∈ s.tokens.keys, token < s.nextToken
  nodupHandles : s.handleChecksums.keys.Nodup
  nodupTokens : s.tokens.keys.Nodup

theorem mem_keys_set {α : Type} {d : Dict Nat α} {k j : Nat} {a : α} (h : j ∈ (d.set k a).keys) : j ∈ d.keys ∨ j = k := by
  rw [Dict.keys_set] at h
  split at h
  · exact .inl h
  · exact (List.mem_append.1 h).imp_right List.mem_singleton.1

theorem mem_keys_erase {α : Type} {d : Dict Nat α} {k j : Nat} (h : j ∈ (d.erase k).keys) : j ∈ d.keys := by
  rw [Dict.keys_erase] at h
  exact List.mem_of_mem_filter h

/-- Steps that leave the handles alone. -/
def keepsHandles : FuseOp → Bool
  | .issueHandle .. | .closeHandle _ | .issueToken _ | .closeToken _ => false
  | _ => true

/-- All that such a step changes is the cache. -/
theorem exec_keepsHandles (h : keepsHandles o = true) :
    (s.exec config choice o).2 = { s with cache := (s.exec config choice o).2.cache } := by
  cases o <;> first | cases h | rfl | skip
  all_goals
    simp only [FuseState.exec, FuseState.guarded, FuseState.onCache]
    try split
    all_goals rfl

theorem fresh_exec (h : Fresh s) : Fresh (s.exec config choice o).2 := by
  cases hkeeps : keepsHandles o with
  | true =>
    rw [exec_keepsHandles hkeeps]
    exact ⟨h.openFiles, h.handles, h.tokens, h.nodupHandles, h.nodupTokens⟩
  | false =>
    cases o with
    | issueHandle data checksum =>
      refine ⟨fun handle hmem => ?_, fun handle hmem => ?_, h.tokens, ?_, h.nodupTokens⟩
      · rcases mem_keys_set hmem with hmem | rfl
        · exact Nat.lt_succ_of_lt (h.openFiles handle hmem)
        · exact Nat.lt_succ_self _
      · cases checksum with
        | none => exact Nat.lt_succ_of_lt (h.handles handle hmem)
        | some checksum =>
          rcases mem_keys_set hmem with hmem | rfl
          · exact Nat.lt_succ_of_lt (h.handles handle hmem)
          · exact Nat.lt_succ_self _
      · cases checksum with
        | none => exact h.nodupHandles
        | some checksum => exact Dict.nodup_keys_set h.nodupHandles
    | closeHandle handle =>
      exact ⟨fun j hj => h.openFiles j (mem_keys_erase hj), fun j hj => h.handles j (mem_keys_erase hj), h.tokens,
        Dict.nodup_keys_erase h.nodupHandles, h.nodupTokens⟩
    | issueToken checksum =>
      refine ⟨h.openFiles, h.handles, fun token hmem => ?_, h.nodupHandles, Dict.nodup_keys_set h.nodupTokens⟩
      rcases mem_keys_set hmem with hmem | rfl
      · exact Nat.lt_succ_of_lt (h.tokens token hmem)
      · exact Nat.lt_succ_self _
    | closeToken token =>
      exact ⟨h.openFiles, h.handles, fun j hj => h.tokens j (mem_keys_erase hj), h.nodupHandles, Dict.nodup_keys_erase h.nodupTokens⟩
    | _ => cases hkeeps

/-- Steps that neither take nor give a pin leave the reference counts alone. -/
theorem refs_exec (h : isPlain o = true) : (s.exec config choice o).2.cache.refs = s.cache.refs := by
  cases o with
  | acquire | release | issueHandle | issueToken | closeHandle | closeToken => cases h
  | evict checksum => exact openCount_evict
  | track checksum size => exact track_pinned.1
  | _ =>
    simp only [FuseState.exec, FuseState.guarded]
    try split
    all_goals rfl

/-- What a step adds to the reference count of an entry, it adds to the handles and to the pins of the call. -/
theorem balance_exec (hfresh : Fresh s) (hallowed : Pins.Allowed held o) (checksum : String)
    (hle : held.count checksum ≤ s.cache.openCount checksum) :
    (s.exec config choice o).2.cache.openCount checksum + s.openHandles checksum + held.count checksum =
      s.cache.openCount checksum + (s.exec config choice o).2.openHandles checksum +
        (Pins.note held o (s.exec config choice o).1).count checksum := by
  cases hplain : isPlain o with
  | true =>
    have hkeeps : keepsHandles o = true := by cases o <;> first | rfl | cases hplain
    have hnote : Pins.note held o (s.exec config choice o).1 = held := by cases o <;> first | rfl | cases hplain
    have hcount : (s.exec config choice o).2.cache.openCount checksum = s.cache.openCount checksum := by
      unfold HydrationCache.openCount
      rw [refs_exec hplain]
    have hopen : (s.exec config choice o).2.openHandles checksum = s.openHandles checksum := by
      rw [exec_keepsHandles hkeeps]
      rfl
    rw [hnote, hcount, hopen]
  | false =>
    cases o with
    | acquire checksum' =>
      have hcount : (s.cache.acquire checksum').openCount checksum =
          s.cache.openCount checksum + if checksum' = checksum then 1 else 0 := openCount_acquire
      show (s.cache.acquire checksum').openCount checksum + s.openHandles checksum + held.count checksum =
        s.cache.openCount checksum + s.openHandles checksum + (checksum' :: held).count checksum
      rw [hcount, List.count_cons]
      simp only [beq_iff_eq]
      omega
    | release checksum' =>
      have hcount : (s.cache.release checksum').2.openCount checksum =
          s.cache.openCount checksum - if checksum' = checksum then 1 else 0 := openCount_release
      have hmem : checksum' ∈ held := hallowed
      show (s.cache.release checksum').2.openCount checksum + s.openHandles checksum + held.count checksum =
        s.cache.openCount checksum + s.openHandles checksum + (held.erase checksum').count checksum
      rw [hcount, List.count_erase]
      by_cases hc : checksum' = checksum
      · subst hc
        have hpos := List.count_pos_iff.2 hmem
        simp only [if_true, beq_self_eq_true]
        omega
      · simp [hc]
    | issueHandle data checksum' =>
      cases checksum' with
      | none =>
        show s.cache.openCount checksum + s.openHandles checksum + held.count checksum =
          s.cache.openCount checksum + s.openHandles checksum + held.count checksum
        rfl
      | some checksum' =>
        have hmem : checksum' ∈ held := hallowed
        have hnew : s.nextHandle ∉ s.handleChecksums.keys := fun hin => Nat.lt_irrefl _ (hfresh.handles _ hin)
        have hset := count_values_set (a := checksum') (b := checksum) hnew
        show s.cache.openCount checksum + ((s.handleChecksums.map Prod.snd).count checksum + (s.tokens.map Prod.snd).count checksum) +
            held.count checksum =
          s.cache.openCount checksum + (((s.handleChecksums.set s.nextHandle checksum').map Prod.snd).count checksum +
            (s.tokens.map Prod.snd).count checksum) + (held.erase checksum').count checksum
        rw [hset, List.count_erase]
        by_cases hc : checksum' = checksum
        · subst hc
          have hpos := List.count_pos_iff.2 hmem
          simp only [if_true, beq_self_eq_true]
          omega
        · simp [hc]
    | issueToken checksum' =>
      have hmem : checksum' ∈ held := hallowed
      have hnew : s.nextToken ∉ s.tokens.keys := fun hin => Nat.lt_irrefl _ (hfresh.tokens _ hin)
      have hset := count_values_set (a := checksum') (b := checksum) hnew
      show s.cache.openCount checksum + ((s.handleChecksums.map Prod.snd).count checksum + (s.tokens.map Prod.snd).count checksum) +
          held.count checksum =
        s.cache.openCount checksum + ((s.handleChecksums.map Prod.snd).count checksum +
          ((s.tokens.set s.nextToken checksum').map Prod.snd).count checksum) + (held.erase checksum').count checksum
      rw [hset, List.count_erase]
      by_cases hc : checksum' = checksum
      · subst hc
        have hpos := List.count_pos_iff.2 hmem
        simp only [if_true, beq_self_eq_true]
        omega
      · simp [hc]
    | closeHandle handle =>
      have herase := count_values_erase (k := handle) (b := checksum) hfresh.nodupHandles
      show s.cache.openCount checksum + ((s.handleChecksums.map Prod.snd).count checksum + (s.tokens.map Prod.snd).count checksum) +
          held.count checksum =
        s.cache.openCount checksum + (((s.handleChecksums.erase handle).map Prod.snd).count checksum +
          (s.tokens.map Prod.snd).count checksum) +
          (Pins.note held (.closeHandle handle) (.ok (s.handleChecksums.get? handle))).count checksum
      rw [herase]
      cases hget : s.handleChecksums.get? handle with
      | none =>
        simp only [Pins.note]
        simp
      | some checksum' =>
        simp only [Pins.note, List.count_cons, beq_iff_eq, Option.some.injEq]
        omega
    | closeToken token =>
      have herase := count_values_erase (k := token) (b := checksum) hfresh.nodupTokens
      show s.cache.openCount checksum + ((s.handleChecksums.map Prod.snd).count checksum + (s.tokens.map Prod.snd).count checksum) +
          held.count checksum =
        s.cache.openCount checksum + ((s.handleChecksums.map Prod.snd).count checksum +
          ((s.tokens.erase token).map Prod.snd).count checksum) +
          (Pins.note held (.closeToken token) (.ok (s.tokens.get? token))).count checksum
      rw [herase]
      cases hget : s.tokens.get? token with
      | none =>
        simp only [Pins.note]
        simp
      | some checksum' =>
        simp only [Pins.note, List.count_cons, beq_iff_eq, Option.some.injEq]
        omega
    | _ => cases hplain

/-- A buffer stays until its handle is closed; a new handle has a new number. -/
theorem keepsBuffers_exec (hfresh : Fresh s) : KeepsBuffers ((fuseMachine config).step s o choice) := by
  intro handle data hget hop
  show (s.exec config choice o).2.openFiles.get? handle = some data
  cases hkeeps : keepsHandles o with
  | true =>
    rw [exec_keepsHandles hkeeps]
    exact hget
  | false =>
    cases o with
    | issueHandle data' checksum =>
      have hne : s.nextHandle ≠ handle := by
        rintro rfl
        exact Nat.lt_irrefl _ (hfresh.openFiles _ (Dict.mem_keys_iff.2 (by
          rw [show s.openFiles.get? s.nextHandle = some data from hget]
          rfl)))
      exact (Dict.get?_set _ _ _ _).trans ((if_neg hne).trans hget)
    | closeHandle handle' =>
      have hne : handle' ≠ handle := by
        rintro rfl
        exact hop rfl
      exact (Dict.get?_erase _ _ _).trans ((if_neg hne).trans hget)
    | issueToken | closeToken => exact hget
    | _ => cases hkeeps

end balance

/-! ## Interleavings -/

section runs

variable {ι : Type} [DecidableEq ι] {steps : List (ι × FuseStep)}

theorem pinsOf_concat (i j : ι) (st : FuseStep) :
    pinsOf i (steps ++ [(j, st)]) = if j = i then Pins.note (pinsOf i steps) st.op st.ans else pinsOf i steps := by
  unfold pinsOf
  rw [List.filter_append, List.foldl_append]
  by_cases h : j = i <;> simp [h]

variable [Fintype ι]

/-- One call's pins change, and so does their sum. -/
theorem sum_count_update (pins : ι → List String) (i : ι) (held : List String) (checksum : String) :
    ∑ j, (Function.update pins i held j).count checksum + (pins i).count checksum =
      ∑ j, (pins j).count checksum + held.count checksum := by
  rw [← Finset.add_sum_erase _ _ (Finset.mem_univ i), ← Finset.add_sum_erase _ (fun j => (pins j).count checksum) (Finset.mem_univ i),
    Function.update_self]
  have hrest : ∑ j ∈ Finset.univ.erase i, (Function.update pins i held j).count checksum =
      ∑ j ∈ Finset.univ.erase i, (pins j).count checksum :=
    Finset.sum_congr rfl fun j hj => by rw [Function.update_of_ne (Finset.ne_of_mem_erase hj)]
  rw [hrest]
  omega

/-- What holds after every step, whoever makes it. -/
structure Balanced (steps : List (ι × FuseStep)) (s : FuseState) (pins : ι → List String) : Prop where
  noted : ∀ i, pins i = pinsOf i steps
  fresh : Fresh s
  counts : ∀ checksum, s.cache.openCount checksum = s.openHandles checksum + ∑ i, (pins i).count checksum
  buffers : ∀ x ∈ steps, KeepsBuffers x.2

theorem Balanced.step {config : FuseConfig} {s : FuseState} {pins : ι → List String} (h : Balanced steps s pins) {i : ι}
    {o : FuseOp} {choice : FuseChoice} (hallowed : Pins.Allowed (pins i) o) :
    Balanced (steps ++ [(i, (fuseMachine config).step s o choice)]) (s.exec config choice o).2
      (Function.update pins i (Pins.note (pins i) o (s.exec config choice o).1)) := by
  refine ⟨fun j => ?_, fresh_exec h.fresh, fun checksum => ?_, fun x hx => ?_⟩
  · rw [pinsOf_concat]
    by_cases hj : i = j
    · subst hj
      rw [Function.update_self, if_pos rfl, h.noted]
      rfl
    · rw [Function.update_of_ne (Ne.symm hj), if_neg hj, h.noted]
  · have hle : (pins i).count checksum ≤ s.cache.openCount checksum := by
      have hsingle := Finset.single_le_sum (f := fun j => (pins j).count checksum) (fun _ _ => Nat.zero_le _) (Finset.mem_univ i)
      have hcounts := h.counts checksum
      omega
    have hbalance : (s.exec config choice o).2.cache.openCount checksum + s.openHandles checksum + (pins i).count checksum =
        s.cache.openCount checksum + (s.exec config choice o).2.openHandles checksum +
          (Pins.note (pins i) o (s.exec config choice o).1).count checksum := balance_exec h.fresh hallowed checksum hle
    have hsum := sum_count_update pins i (Pins.note (pins i) o (s.exec config choice o).1) checksum
    have hcounts := h.counts checksum
    omega
  · rcases List.mem_append.1 hx with hx | hx
    · exact h.buffers x hx
    · rw [List.mem_singleton.1 hx]
      exact keepsBuffers_exec h.fresh

/-- The state of a new process: no entry is pinned and no handle is open. -/
def start (maxBytes : Option Int) (dir : Directory) : FuseState := { cache := (HydrationCache.openDirectory maxBytes dir).2 }

theorem openCount_start (maxBytes : Option Int) (dir : Directory) (checksum : String) :
    (start maxBytes dir).cache.openCount checksum = 0 := by
  unfold start HydrationCache.openDirectory HydrationCache.openCount
  rw [enforceBudget_pinned.1]
  rfl

theorem balanced_start (maxBytes : Option Int) (dir : Directory) :
    @Balanced ι _ _ [] (start maxBytes dir) fun _ => [] := by
  have hnone : ∀ {k : Nat} {P : Prop}, k ∈ ([] : List Nat) → P := fun h => absurd h List.not_mem_nil
  refine ⟨fun _ => rfl, ⟨fun _ h => hnone h, fun _ h => hnone h, fun _ h => hnone h, List.nodup_nil, List.nodup_nil⟩,
    fun checksum => ?_, fun _ h => absurd h List.not_mem_nil⟩
  rw [openCount_start, show (start maxBytes dir).openHandles checksum = 0 from rfl]
  simp

end runs

end PinsAux

open PinsAux

/-- **Pins are counted right, and protect an entry from all but a failed check and a store of other bytes.** Calls of any number
run side by side in any interleaving, from any directory on. The reference counts are those of the open handles and of the pins
that calls under way hold, and no ended call holds one; every handle of the mount keeps its buffer; and every entry keeps its
bytes while it is pinned, if and only if no pinned entry is deleted by a check that failed or stored with other bytes. -/
theorem pinned_entries_kept_iff (config : FuseConfig) (maxBytes : Option Int) (dir : Directory) {ι : Type} [Fintype ι]
    [DecidableEq ι] (calls : ι → FuseCall) (sched : List (ι × FuseChoice)) :
    PinsKept (Pool.trace (fuseMachine config) sched (fusePool config calls) (start maxBytes dir))
        (Pool.finalState (fuseMachine config) sched (fusePool config calls) (start maxBytes dir))
        (fun i => (Pool.finalPool (fuseMachine config) sched (fusePool config calls) (start maxBytes dir) i).value?.isSome = true) ↔
      ∀ x ∈ Pool.trace (fuseMachine config) sched (fusePool config calls) (start maxBytes dir), Unharmed x.2 := by
  have hsurvives : ∀ x ∈ Pool.trace (fuseMachine config) sched (fusePool config calls) (start maxBytes dir),
      Survives x.2 ↔ Unharmed x.2 := by
    intro x hx
    obtain ⟨s, o, choice, hstep⟩ := Pool.ran_of_mem_trace hx
    rw [hstep]
    exact survives_iff o
  have hfollows : ∀ i, (fusePool config calls i).FollowsTo Pins.note Pins.Allowed (fun held => held = []) [] := by
    intro i
    refine Prog.wp_mono (neutral_body config (calls i) () []) ?_
    rintro ⟨_ | _, l⟩ held h
    · exact h
    · exact h
  obtain ⟨pins, hbalanced, hleft⟩ := Pool.invariant_of_followsTo (M := fuseMachine config) (I := Balanced)
    (fun o => ⟨.error { cls := .assertion, message := "" }⟩)
    (fun steps s pins i o choice h hallowed => h.step hallowed) hfollows (balanced_start maxBytes dir) sched
  have hreleased : ∀ i, (Pool.finalPool (fuseMachine config) sched (fusePool config calls) (start maxBytes dir) i).value?.isSome =
      true → pinsOf i (Pool.trace (fuseMachine config) sched (fusePool config calls) (start maxBytes dir)) = [] := by
    intro i hended
    have hdone := hleft i
    obtain ⟨a, ha⟩ := Option.isSome_iff_exists.1 hended
    rw [Prog.value?_eq_some.1 ha] at hdone
    rw [← hbalanced.noted i]
    exact hdone
  constructor
  · intro h x hx
    exact (hsurvives x hx).1 (h.survives x hx)
  · intro h
    refine ⟨fun x hx => (hsurvives x hx).2 (h x hx), hbalanced.buffers, fun checksum => ?_, hreleased⟩
    rw [hbalanced.counts checksum]
    exact congrArg _ (Finset.sum_congr rfl fun i _ => by rw [hbalanced.noted i])

/-- The integrity record of the entry `a`, written at the instant 1. -/
def letterRecord : Record := { size := 1, mtimeNs := 1, offset := 0, length := 1, sha256 := letterA }

def letterConfig : FuseConfig where
  lib := { letterLibraries with
    dumps := fun record => if record = letterRecord then [1] else [0]
    loads := fun text => if text = [1] then some letterRecord else none }
  record path := if path = "/a" then some letterA else none

/-- The gateway opens the file before it is there, it is hydrated, it is altered on disk, and the gateway opens it once more. -/
def letterCalls : Fin 4 → FuseCall
  | 1 => .hydrated letterA (some [97])
  | 2 => .damage (entryKey letterA) { bytes := [98], mtimeNs := 1 }
  | _ => .gatewayOpen "/a" false

def letterSchedule : List (Fin 4 × FuseChoice) :=
  List.replicate 6 (0, { now := 1 }) ++ List.replicate 4 (1, { now := 1 }) ++ [(2, { now := 1 })] ++ List.replicate 4 (3, { now := 1 })

/-- The check of the second open deletes the entry that the first has open. -/
theorem check_deletes_pinned_entry :
    let steps := Pool.trace (fuseMachine letterConfig) letterSchedule (fusePool letterConfig letterCalls) (start none {})
    let s := Pool.finalState (fuseMachine letterConfig) letterSchedule (fusePool letterConfig letterCalls) (start none {})
    s.tokens = [(0, letterA)] ∧ s.cache.openCount letterA = 1 ∧ s.cache.file? letterA = none ∧
      ∀ ended, ¬PinsKept steps s ended := by
  intro steps s
  have hfinal : s.tokens = [(0, letterA)] ∧ s.cache.openCount letterA = 1 ∧ s.cache.file? letterA = none := by
    subst s
    decide +kernel
  have hlast : steps.getLast?.map (fun x => (x.2.pre.cache.openCount letterA, x.2.post.cache.openCount letterA,
      x.2.pre.cache.file? letterA, x.2.post.cache.file? letterA)) =
      some (1, 1, some { bytes := [98], mtimeNs := 1 }, none) := by
    subst steps
    decide +kernel
  have hop : steps.getLast?.map (fun x => match x.2.op with
      | .damage .. => true
      | _ => false) = some false := by
    subst steps
    decide +kernel
  refine ⟨hfinal.1, hfinal.2.1, hfinal.2.2, fun ended h => ?_⟩
  obtain ⟨x, hx, hvalues⟩ := Option.map_eq_some_iff.1 hlast
  rw [hx, Option.map_some] at hop
  obtain ⟨hpre, hvalues⟩ := Prod.mk.inj hvalues
  obtain ⟨hpost, hvalues⟩ := Prod.mk.inj hvalues
  obtain ⟨hfile, hgone⟩ := Prod.mk.inj hvalues
  have hsurvives := h.survives x (List.mem_of_getLast? hx)
  unfold Survives at hsurvives
  split at hsurvives
  · rename_i key file hdamage
    rw [hdamage] at hop
    cases hop
  · obtain ⟨file', hfile', -⟩ := hsurvives letterA _ (by decide +kernel) (by omega) (by omega) hfile
    rw [hgone] at hfile'
    cases hfile'

/-- No pin is left behind. Once every call has ended, an entry is pinned as often as handles are open on it, however the calls
were interleaved, and whatever was deleted or stored under the pins. -/
theorem ended_calls_leave_handles (config : FuseConfig) (maxBytes : Option Int) (dir : Directory) {ι : Type} [Fintype ι]
    [DecidableEq ι] (calls : ι → FuseCall) (sched : List (ι × FuseChoice))
    (hended : ∀ i, (Pool.finalPool (fuseMachine config) sched (fusePool config calls) (start maxBytes dir) i).value?.isSome = true)
    (checksum : String) :
    let s := Pool.finalState (fuseMachine config) sched (fusePool config calls) (start maxBytes dir)
    s.cache.openCount checksum = s.openHandles checksum := by
  have hfollows : ∀ i, (fusePool config calls i).FollowsTo Pins.note Pins.Allowed (fun held => held = []) [] := by
    intro i
    refine Prog.wp_mono (neutral_body config (calls i) () []) ?_
    rintro ⟨_ | _, l⟩ held h
    · exact h
    · exact h
  obtain ⟨pins, hbalanced, hleft⟩ := Pool.invariant_of_followsTo (M := fuseMachine config) (I := Balanced)
    (fun o => ⟨.error { cls := .assertion, message := "" }⟩)
    (fun steps s pins i o choice h hallowed => h.step hallowed) hfollows (balanced_start maxBytes dir) sched
  have hnone : ∀ i, pins i = [] := by
    intro i
    have hdone := hleft i
    obtain ⟨a, ha⟩ := Option.isSome_iff_exists.1 (hended i)
    rwa [Prog.value?_eq_some.1 ha] at hdone
  simp [hbalanced.counts checksum, hnone]

/-- The file is hydrated, and the gateway opens it. -/
theorem ended_calls_leave_handles_opened :
    let calls : Fin 2 → FuseCall := ![.hydrated letterA (some [97]), .gatewayOpen "/a" false]
    let sched := List.replicate 9 ((0 : Fin 2), ({ now := 1 } : FuseChoice)) ++ List.replicate 9 (1, { now := 1 })
    let s := Pool.finalState (fuseMachine letterConfig) sched (fusePool letterConfig calls) (start none {})
    s.openHandles letterA = 1 ∧ s.cache.openCount letterA = s.openHandles letterA :=
  ⟨by decide +kernel, ended_calls_leave_handles letterConfig none {} _ _ (by decide +kernel) letterA⟩

end OpenBlade
