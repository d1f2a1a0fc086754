import OpenBlade.Jobs.Format

/-!
# What the catalog says of a formatted tape

A format purges no catalog rows: neither the service nor the orchestrator writes file records or file instances, so the catalog
claims after it what it claimed before. Only the row of the cartridge says that the tape was formatted.
-/

namespace OpenBlade

open Effects Proc

namespace Catalog

/-- The catalog claims archived or verified content on the cartridge. -/
def Claims (cat : Catalog) (barcode : Barcode) : Prop :=
  ∃ row ∈ cat.instances, row.barcode = barcode ∧ (row.state = .archived ∨ row.state = .verified)

instance (cat : Catalog) (barcode : Barcode) : Decidable (cat.Claims barcode) :=
  inferInstanceAs (Decidable (∃ row ∈ cat.instances, row.barcode = barcode ∧ (row.state = .archived ∨ row.state = .verified)))

/-- A row that is saved is the row that is found. -/
theorem getCartridge_saved {cat : Catalog} {barcode : Barcode} {row cartridge : Cartridge}
    (h : cat.getCartridge barcode = some row) (hb : cartridge.barcode = barcode) :
    (cat.updateCartridge barcode fun _ => cartridge).getCartridge barcode = some cartridge := by
  rw [getCartridge_updateCartridge cat barcode barcode fun _ _ => hb, h, Option.map_some, if_pos (barcode_of_getCartridge h)]

end Catalog

namespace FormatAux

variable {L : Type} {sha256 : Bytes → String}

theorem writesFiles_of_orchestrator {o : Op} (h : o.ofOrchestrator = true) : World.writesFiles o = false := by
  cases o with
  | catalog o => cases o <;> first | rfl | cases h
  | _ => rfl

/-- A request writes no rows of files. -/
theorem request_files (request : TapeOpRequest) (raiseOnFailed : Bool) :
    Reads (fun o => World.writesFiles o = false) (executeTapeRequest request raiseOnFailed : JobM L TapeOpRecord) :=
  (reads_executeTapeRequest request raiseOnFailed).weaken fun _ h => writesFiles_of_orchestrator h

/-- A format job writes no rows of files. -/
theorem confirm_files (svc : FormatService) (barcode tokenValue : String) :
    Reads (fun o => World.writesFiles o = false) (svc.confirm barcode tokenValue : JobM L OperationResult) := by
  have hjob : ∀ b confirmation, Reads (fun o => World.writesFiles o = false) (runFormatJob b confirmation : JobM L OperationResult) :=
    fun b confirmation => only_bind (only_perform rfl) fun now => only_bind (only_ofExcept _) fun _ =>
      only_bind (request_files _ _) fun record => only_pure _
  refine only_bind (only_ofExcept _) fun _ => only_bind (only_perform rfl) fun found => ?_
  cases found with
  | none => exact only_raise _
  | some token =>
    refine only_ite (fun _ => only_raise _) fun _ => only_bind (only_perform rfl) fun deleted => ?_
    refine only_ite (fun _ => only_raise _) fun _ => only_bind (hjob _ _) fun result => ?_
    exact only_bind (only_perform rfl) fun cartridge => only_bind (only_perform rfl) fun _ => only_pure _

/-- The rows of files are those there were, and so are the claims. -/
def SameRows (w w' : World) : Prop :=
  w'.catalog.records = w.catalog.records ∧ w'.catalog.instances = w.catalog.instances ∧
    ∀ barcode, w'.catalog.Claims barcode ↔ w.catalog.Claims barcode

theorem sameRows_run {α : Type} {m : JobM L α} (h : Reads (fun o => World.writesFiles o = false) m) (l : L) (w : World)
    (cs : List Choice) : SameRows w ((machine sha256).run cs (m l) w).2 := by
  have hrows := (h l).cut (M := machine sha256)
    (J := fun w' => w'.catalog.records = w.catalog.records ∧ w'.catalog.instances = w.catalog.instances)
    (fun o ho s c hs => by
      obtain ⟨hr, hi⟩ := World.exec_files (w := s) sha256 (c := c) ho
      exact ⟨hr.trans hs.1, hi.trans hs.2⟩) cs ⟨rfl, rfl⟩
  refine ⟨hrows.1, hrows.2, fun barcode => ?_⟩
  unfold Catalog.Claims
  rw [hrows.2]

/-- A confirm that returns has marked the row of its cartridge. -/
theorem wp_confirm (svc : FormatService) (barcode tokenValue : String) (l : L) (w : World) :
    wp (machine sha256) (.alone (fun _ => True) fun _ => True) (svc.confirm barcode tokenValue : JobM L OperationResult)
      (fun _ _ w' => ∃ row, w'.catalog.getCartridge (svc.normalizeBarcode barcode) = some row ∧ row.formatted = true ∧ row.usedBytes = 0)
      (fun _ _ _ => True) l w := by
  unfold FormatService.confirm
  rw [wp_bind, wp_ofExcept]
  cases svc.requireScratchMedia (svc.normalizeBarcode barcode) with
  | error e => trivial
  | ok u =>
    simp only []
    rw [wp_bind]
    refine wp_call fun s₁ _ c _ => ⟨trivial, fun found _ => ?_, fun _ _ => trivial⟩
    cases found with
    | none => trivial
    | some token =>
      simp only []
      split
      · trivial
      rw [wp_bind]
      refine wp_call fun s₂ _ c _ => ⟨trivial, fun deleted _ => ?_, fun _ _ => trivial⟩
      split
      · trivial
      rw [wp_bind]
      refine wp_mono (wp_true (fun _ => trivial) _) (fun result l' s₃ _ => ?_) fun _ _ _ _ => trivial
      rw [wp_bind]
      refine wp_call fun s₄ _ c _ => ⟨trivial, fun cartridge hans => ?_, fun _ _ => trivial⟩
      obtain ⟨hcart, hpost⟩ := World.exec_ok sha256 hans
      obtain ⟨hget, hbarcode⟩ := Catalog.getCartridge_addCartridge (s₄.elapse c).catalog (svc.normalizeBarcode barcode)
      have hcart' : ((s₄.elapse c).catalog.addCartridge (svc.normalizeBarcode barcode) none).1 = cartridge := Except.ok.inj hcart
      rw [hcart'] at hget hbarcode
      rw [wp_bind]
      refine wp_call fun s₅ hr c' _ => ⟨trivial, fun saved hans' => ?_, fun _ _ => trivial⟩
      obtain rfl : (s₄.exec sha256 _ c).2 = s₅ := hr
      obtain ⟨-, hsaved⟩ := World.exec_ok sha256 hans'
      show ∃ row, ((machine sha256).exec _ _ c').2.catalog.getCartridge _ = some row ∧ _
      refine ⟨{ cartridge with formatted := true, usedBytes := 0 }, ?_, rfl, rfl⟩
      rw [show (machine sha256).exec = World.exec sha256 from rfl, hsaved, hpost]
      show Catalog.getCartridge (Catalog.updateCartridge _ cartridge.barcode _) _ = _
      rw [hbarcode]
      exact Catalog.getCartridge_saved hget rfl

end FormatAux

/-- Wherever a confirm or a request ended or was cut, the rows of files are those there were, so that the catalog claims content on
a cartridge after it is formatted exactly when it did before; a confirm that returns has only marked the row of the cartridge. -/
theorem format_keeps_claims {L : Type} (sha256 : Bytes → String) (w : World) (l : L) (cs : List Choice) :
    (∀ (svc : FormatService) (barcode tokenValue : String),
      FormatAux.SameRows w ((machine sha256).run cs (svc.confirm barcode tokenValue l) w).2 ∧
      ∀ result l' w', (machine sha256).run cs (svc.confirm barcode tokenValue l) w = (.ret (.ok result, l'), w') →
        ∃ row, w'.catalog.getCartridge (svc.normalizeBarcode barcode) = some row ∧ row.formatted = true ∧ row.usedBytes = 0) ∧
    ∀ (request : TapeOpRequest) (raiseOnFailed : Bool),
      FormatAux.SameRows w ((machine sha256).run cs (executeTapeRequest request raiseOnFailed l) w).2 := by
  refine ⟨fun svc barcode tokenValue => ⟨FormatAux.sameRows_run (FormatAux.confirm_files svc barcode tokenValue) l w cs, ?_⟩,
    fun request raiseOnFailed => FormatAux.sameRows_run (FormatAux.request_files request raiseOnFailed) l w cs⟩
  intro result l' w' hrun
  exact (run_of_wp (FormatAux.wp_confirm svc barcode tokenValue l w) cs fun _ _ => trivial).2 _ w' hrun

namespace FormatExample

/-- A scratch tape. -/
def library : Library := { slots := [(1, some "T1")], drives := [(0, {})] }

/-- A service that formats it. -/
def svc : FormatService := { realBackend := false, scratchBarcodes := [], upper := id }

/-- The file a job has archived on the tape, and the dry run. -/
def history : JobM Unit Unit := do
  let group ← createVolumeGroup "vg"
  let _ ← addCartridge "T1" (some group.id)
  let record ← createFileRecord
    { path := "/vg/a", sizeBytes := 1, checksum := "", vgId := group.id, shardCount := none, shardIndex := none, blockSize := none
      shardProfile := none, parentId := none }
  let row ← createFileInstance record.id "T1" "/a"
  markInstanceArchived row.id true
  let _ ← svc.dryRun "T1"
  pure ()

end FormatExample

/-- A tape is formatted, and the catalog still claims that it holds an archived file. -/
theorem format_claims_erased :
    ¬∀ (sha256 : Bytes → String) (svc : FormatService) (history : JobM Unit Unit) (barcode tokenValue : String) (library : Library)
      (cs : List Choice) (result : OperationResult) (w' : World),
      (machine sha256).run cs ((do
        history
        svc.confirm barcode tokenValue) ()) { library := library } = (.ret (.ok result, ()), w') →
      result.success = true → ¬w'.catalog.Claims (svc.normalizeBarcode barcode) := by
  intro h
  have hvalue : ((machine fun _ => "").run (List.replicate 40 ({} : Choice))
      ((do
        FormatExample.history
        FormatExample.svc.confirm "T1" "0") ()) { library := FormatExample.library }).1.value? =
      some (.ok { success := true, message := "formatted" }, ()) := by decide +kernel
  have hclaims : ((machine fun _ => "").run (List.replicate 40 ({} : Choice))
      ((do
        FormatExample.history
        FormatExample.svc.confirm "T1" "0") ()) { library := FormatExample.library }).2.catalog.Claims
        (FormatExample.svc.normalizeBarcode "T1") := by decide +kernel
  have hnone := h (fun _ => "") FormatExample.svc FormatExample.history "T1" "0" FormatExample.library (List.replicate 40 {})
    { success := true, message := "formatted" }
  generalize (machine fun _ => "").run (List.replicate 40 ({} : Choice)) _ _ = finish at hvalue hclaims hnone
  exact hnone finish.2 (Prod.ext (Prog.value?_eq_some.1 hvalue) rfl) rfl hclaims

/-- The confirm of that tape. -/
theorem format_keeps_claims_scratch :
    let start := ((machine fun _ => "").run (List.replicate 9 ({} : Choice)) (FormatExample.history ())
      { library := FormatExample.library }).2
    let finish := (machine fun _ => "").run (List.replicate 40 ({} : Choice)) (FormatExample.svc.confirm "T1" "0" ()) start
    finish.1.value? = some (.ok { success := true, message := "formatted" }, ()) ∧ FormatAux.SameRows start finish.2 :=
  ⟨by decide +kernel, ((format_keeps_claims (fun _ => "") _ () _).1 FormatExample.svc "T1" "0").1⟩

end OpenBlade
