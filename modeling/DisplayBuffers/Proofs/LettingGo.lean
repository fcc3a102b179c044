import DisplayBuffers.Proofs.CallLog
import DisplayBuffers.Proofs.Holders

/-! When a holder lets go of the driver. While others hold it the driver is not told, so that all
they do with it can as well be done before. -/
namespace DisplayBuffers
variable {σ ι : Type} {D : Driver σ ι} {w w' : World σ}

namespace World

theorem hold_letGo (hw : 1 < w.holders) : (w.letGo D).hold = w.hold.letGo D := by
  have hhold : w.hold.holders ≠ 1 := Nat.succ_ne_succ_iff.mpr (Nat.ne_of_gt (Nat.zero_lt_of_lt hw))
  rw [letGo_of_others D hw.ne', letGo_of_others D hhold, hold, hold]
  simp only [Nat.sub_add_cancel hw.le, Nat.add_sub_cancel]

theorem close_letGo (w : World σ) (d : Dmabuf) : (w.letGo D).close d = (w.close d).letGo D := rfl

theorem warn_letGo (w : World σ) (x : Warning) : (w.letGo D).warn x = (w.warn x).letGo D := rfl

theorem freshId_letGo (w : World σ) :
    (w.letGo D).freshId = (w.freshId.1, w.freshId.2.letGo D) := rfl

/-- Calls that do not depend on how many hold the driver. -/
private theorem letGo_of_call {α : Type} {f : World σ → α × World σ}
    (hf : ∀ w n, f { w with holders := n } = ((f w).1, { (f w).2 with holders := n }))
    (hw : 1 < w.holders) {r : α} (h : f w = (r, w')) :
    f (w.letGo D) = (r, w'.letGo D) ∧ w'.holders = w.holders := by
  have hh : w'.holders = w.holders := by
    have hself := congrArg (·.2.holders) (hf w w.holders)
    rwa [show f { w with holders := w.holders } = f w from rfl, h] at hself
  rw [letGo_of_others D hw.ne', letGo_of_others D (hh ▸ hw.ne'), hh, hf, h]
  exact ⟨rfl, rfl⟩

theorem allocate_letGo (hw : 1 < w.holders) {kind : BufferKind} {width height : UInt32}
    {format : PixelFormat} {r : Except IoError Storage}
    (h : w.allocate D kind width height format = (r, w')) :
    (w.letGo D).allocate D kind width height format = (r, w'.letGo D) ∧
      w'.holders = w.holders := by
  refine letGo_of_call (f := (·.allocate D kind width height format)) (fun w n => ?_) hw h
  simp only [allocate]
  rcases D.allocate w.allocations kind width height format w.driver with ⟨_ | _, _⟩ <;> rfl

theorem map_letGo (hw : 1 < w.holders) {s : Storage} {r : Except IoError Address}
    (h : w.map D s = (r, w')) :
    (w.letGo D).map D s = (r, w'.letGo D) ∧ w'.holders = w.holders :=
  letGo_of_call (f := (·.map D s)) (fun _ _ => rfl) hw h

theorem exportHandle_letGo (hw : 1 < w.holders) {handle : Handle} {flags : ExportFlags}
    {r : Except IoError Dmabuf} (h : w.exportHandle D handle flags = (r, w')) :
    (w.letGo D).exportHandle D handle flags = (r, w'.letGo D) ∧ w'.holders = w.holders := by
  refine letGo_of_call (f := (·.exportHandle D handle flags)) (fun w n => ?_) hw h
  simp only [exportHandle]
  rcases D.exportHandle handle flags w.driver with ⟨_ | _, _⟩ <;> rfl

theorem duplicate_letGo (hw : 1 < w.holders) {d : Dmabuf} {r : Except IoError Dmabuf}
    (h : w.duplicate D d = (r, w')) :
    (w.letGo D).duplicate D d = (r, w'.letGo D) ∧ w'.holders = w.holders := by
  refine letGo_of_call (f := (·.duplicate D d)) (fun w n => ?_) hw h
  simp only [duplicate]
  rcases D.duplicate d w.driver with ⟨_ | _, _⟩ <;> rfl

theorem unmap_letGo (hw : 1 < w.holders) (s : Storage) (a : Address) :
    (w.letGo D).unmap D s a = (w.unmap D s a).letGo D ∧
      (w.unmap D s a).holders = w.holders := by
  have h := letGo_of_call (D := D) (f := fun w => ((), w.unmap D s a))
    (fun w n => by simp only [unmap_logged]) hw rfl
  exact ⟨(Prod.mk.inj h.1).2, h.2⟩

theorem release_letGo (hw : 1 < w.holders) (s : Storage) :
    (w.letGo D).release D s = (w.release D s).letGo D ∧
      (w.release D s).holders = w.holders := by
  have h := letGo_of_call (D := D) (f := fun w => ((), w.release D s))
    (fun w n => by simp only [release_logged]) hw rfl
  exact ⟨(Prod.mk.inj h.1).2, h.2⟩

/-- While others hold the driver the address space is as before. -/
theorem view_letGo (hw : 1 < w.holders) (a : Address) : (w.letGo D).view D a = w.view D a := by
  unfold view
  rw [letGo_driver_of_others D hw.ne']

end World

namespace BufferObject
variable {b b' : BufferObject}

theorem acquire_letGo (hw : 1 < w.holders) {r : Except Error Address}
    (h : b.acquire D w = (r, b', w')) :
    b.acquire D (w.letGo D) = (r, b', w'.letGo D) ∧ w'.holders = w.holders := by
  cases acquired h with
  | again hb hm => exact ⟨by simp only [acquire, hb, hm], rfl⟩
  | first hb hm hq =>
    obtain ⟨hq, hh⟩ := World.map_letGo hw hq
    exact ⟨by simp only [acquire, hb, hm, hq], hh⟩
  | failed hb hm hq =>
    obtain ⟨hq, hh⟩ := World.map_letGo hw hq
    exact ⟨by simp only [acquire, hb, hm, hq], hh⟩
  | lent hb => exact ⟨by simp only [acquire, hb], rfl⟩
  | refused hb => exact ⟨by simp only [acquire, hb], rfl⟩

theorem acquireRegion_letGo (hw : 1 < w.holders) {x y width height : UInt32}
    {r : Except Error Address} (h : b.acquireRegion D x y width height w = (r, b', w')) :
    b.acquireRegion D x y width height (w.letGo D) = (r, b', w'.letGo D) := by
  rw [acquireRegion] at h ⊢
  split at h
  · next hr =>
    rw [if_pos hr]
    exact (acquire_letGo hw h).1
  · next hr =>
    obtain ⟨rfl, rfl, rfl⟩ := h
    exact if_neg hr

theorem release_letGo (hw : 1 < w.holders) (b : BufferObject) :
    b.release D (w.letGo D) = ((b.release D w).1, (b.release D w).2.letGo D) := by
  simp only [release]
  split
  · rfl
  · split
    · split
      · rw [(World.unmap_letGo hw ..).1]
      · rfl
    · rfl

theorem write_letGo (hw : 1 < w.holders) (b : BufferObject) (data : List UInt8) :
    b.write D data (w.letGo D) = ((b.write D data w).1, (b.write D data w).2.letGo D) := by
  simp only [write]
  split
  · rfl
  · split
    · rfl
    · rw [World.view_letGo hw]
      rfl

theorem access_letGo (hw : 1 < w.holders) (b : BufferObject) (a : Address) (x : Access) :
    b.access D a (w.letGo D) x = ((b.access D a w x).1, (b.access D a w x).2.letGo D) := by
  cases x with
  | write data => simp only [access, write_letGo hw]
  | poke offset value =>
    simp only [access, World.view_letGo hw]
    split <;> rfl
  | peek offset count =>
    simp only [access, World.view_letGo hw]
    split <;> rfl
  | inspect => rfl

theorem accessAll_letGo (hw : 1 < w.holders) (b : BufferObject) (a : Address)
    (xs : List Access) :
    b.accessAll D a xs (w.letGo D) =
      ((b.accessAll D a xs w).1, (b.accessAll D a xs w).2.letGo D) := by
  induction xs generalizing w with
  | nil => rfl
  | cons x xs ih =>
    obtain ⟨m, hm⟩ := b.access_memory D a w x
    have hx : 1 < (b.access D a w x).2.holders := by
      rw [hm]
      exact hw
    simp only [accessAll, access_letGo hw, ih hx]

theorem withMapping_letGo (hw : 1 < w.holders) {accesses : List Access}
    {r : Except Error (List Seen)} (h : b.withMapping D accesses w = (r, b', w')) :
    b.withMapping D accesses (w.letGo D) = (r, b', w'.letGo D) := by
  rw [withMapping] at h ⊢
  rcases hq : b.acquire D w with ⟨e | a, b₁, w₁⟩
  · rw [hq] at h
    obtain ⟨rfl, rfl, rfl⟩ := h
    rw [(acquire_letGo hw hq).1]
  · obtain ⟨hq', hh⟩ := acquire_letGo hw hq
    have hw₁ : 1 < w₁.holders := hh ▸ hw
    obtain ⟨m, hm⟩ := b₁.accessAll_memory D a accesses w₁
    have hw₂ : 1 < (b₁.accessAll D a accesses w₁).2.holders := by
      rw [hm]
      exact hw₁
    rw [hq] at h
    obtain ⟨rfl, rfl, rfl⟩ := h
    simp only [hq', accessAll_letGo hw₁, release_letGo hw₂]
    rfl

theorem share_letGo (hw : 1 < w.holders) {r : Except Error Dmabuf} (h : b.share D w = (r, w')) :
    b.share D (w.letGo D) = (r, w'.letGo D) := by
  cases shared h with
  | nothing hn hd => simp only [share, hn, hd, if_true]
  | duplicated hn hd hq | notDuplicated hn hd hq =>
    simp only [share, hn, hd, if_true, (World.duplicate_letGo hw hq).1]
  | exported hn hq | notExported hn hq =>
    simp only [share, hn, Bool.false_eq_true, if_false, (World.exportHandle_letGo hw hq).1]

theorem borrow_letGo (hw : 1 < w.holders) (width height : UInt32) (format : FormatCode)
    (planes : List Plane) (descriptor : Option Dmabuf) (address : Option Address) :
    borrow width height format planes descriptor address (w.letGo D) =
      ((borrow width height format planes descriptor address w).1,
        (borrow width height format planes descriptor address w).2.letGo D) := by
  simp only [borrow, World.freshId_letGo]
  rw [World.hold_letGo (w := w.freshId.2) hw]

/-- What an object holds of the driver is let go of before the last reference. -/
theorem destroy_letGo (hw : b.driverReferences < w.holders) :
    b.destroy D (w.letGo D) = (b.destroy D w).letGo D := by
  have hwarn : (if b.locked then (w.letGo D).warn (.destroyedLocked b.id) else w.letGo D) =
      (if b.locked then w.warn (.destroyedLocked b.id) else w).letGo D := by
    split <;> rfl
  have hholders : (if b.locked then w.warn (.destroyedLocked b.id) else w).holders =
      w.holders := by
    split <;> rfl
  rw [destroy, destroy, hwarn]
  generalize (if b.locked then w.warn (.destroyedLocked b.id) else w) = w₁ at hholders ⊢
  rw [driverReferences] at hw
  cases hb : b.backing with
  | owned s d =>
    rw [hb, ← hholders] at hw
    have hw₂ : 1 < (w₁.letGo D).holders := Nat.lt_sub_of_add_lt hw
    cases b.mapping with
    | none =>
      have hw₃ : 1 < ((w₁.close d).letGo D).holders := hw₂
      simp only [World.close_letGo, (World.release_letGo hw₃ s).1]
    | some a =>
      obtain ⟨hu, hh⟩ := World.unmap_letGo (D := D) hw₂ s a
      have hw₃ : 1 < (((w₁.letGo D).unmap D s a).close d).holders := hh ▸ hw₂
      simp only [hu, World.close_letGo, (World.release_letGo hw₃ s).1]
  | borrowed d a => cases d <;> rfl

theorem destroy_holders (b : BufferObject) (w : World σ) :
    (b.destroy D w).holders = w.holders - b.driverReferences := by
  obtain ⟨_, _, _, h, -⟩ := b.destroy_logged D w
  rw [h]

theorem create_letGo (hw : 1 < w.holders) {width height : UInt32} {code : FormatCode}
    {usage : Usage} {r : Except Error BufferObject}
    (h : create D width height code usage w = (r, w')) :
    create D width height code usage (w.letGo D) = (r, w'.letGo D) := by
  have hexported {format : PixelFormat} {s : Storage} {r : Except IoError Dmabuf} {w₁ w₂ : World σ}
      (ha : w.allocate D (.ofUsage usage) width height format = (.ok s, w₁))
      (he : w₁.hold.exportHandle D s.handle .closeOnExec = (r, w₂)) :
      (w.letGo D).allocate D (.ofUsage usage) width height format = (.ok s, w₁.letGo D) ∧
        (w₁.letGo D).hold.exportHandle D s.handle .closeOnExec = (r, w₂.letGo D) ∧
        w₂.holders = w.holders + 1 := by
    obtain ⟨ha, hh⟩ := World.allocate_letGo hw ha
    have hw₁ : 1 < w₁.holders := hh ▸ hw
    obtain ⟨he, hh'⟩ := World.exportHandle_letGo (Nat.lt_succ_of_lt hw₁) he
    rw [World.hold_letGo hw₁, ← hh]
    exact ⟨ha, he, hh'⟩
  cases created h with
  | unsupported hf => simp only [create, hf]
  | notAllocated hf ha => simp only [create, hf, (World.allocate_letGo hw ha).1]
  | @notExported _ s _ _ w₂ hf ha he =>
    obtain ⟨ha, he, hh⟩ := hexported ha he
    have hw₂ : 1 < w₂.holders := by omega
    simp only [create, hf, ha, he, (World.release_letGo hw₂ s).1]
  | @unmapped _ s d _ w₂ hf ha he hu =>
    obtain ⟨ha, he, hh⟩ := hexported ha he
    have hw₂ : 1 < w₂.freshId.2.holders := hh ▸ Nat.lt_succ_of_lt hw
    simp only [create, hf, ha, he, hu, World.freshId_letGo, World.hold_letGo hw₂]
    rfl
  | @mapped _ s d a _ w₂ w₃ hf ha he hu hm =>
    obtain ⟨ha, he, hh⟩ := hexported ha he
    have hw₂ : 1 < w₂.freshId.2.holders := hh ▸ Nat.lt_succ_of_lt hw
    obtain ⟨hm, -⟩ := World.map_letGo (Nat.lt_succ_of_lt hw₂) hm
    simp only [create, hf, ha, he, hu, World.freshId_letGo, World.hold_letGo hw₂, acquire, hm]
    rfl
  | @notMapped format s d e _ w₂ w₃ hf ha he hu hm =>
    obtain ⟨ha, he, hh⟩ := hexported ha he
    have hw₂ : 1 < w₂.freshId.2.holders := hh ▸ Nat.lt_succ_of_lt hw
    obtain ⟨hm, hh'⟩ := World.map_letGo (Nat.lt_succ_of_lt hw₂) hm
    have hw₃ : (ofStorage w₂.freshId.1 width height format s d).driverReferences < w₃.holders := by
      have hh : w₂.freshId.2.hold.holders = w.holders + 2 := congrArg (· + 1) hh
      simp only [ofStorage, driverReferences]
      omega
    simp only [create, hf, ha, he, hu, World.freshId_letGo, World.hold_letGo hw₂, acquire, hm]
    exact congrArg (Prod.mk _) (destroy_letGo hw₃)

end BufferObject

namespace Surface
variable {x : Surface}

theorem clear_letGo (hw : objectReferences x.placed < w.holders) (i : Nat) :
    x.clear D i (w.letGo D) = ((x.clear D i w).1, (x.clear D i w).2.letGo D) := by
  simp only [clear]
  split
  · rfl
  · next old h =>
    have hw := (placed_references h).trans_lt hw
    split
    · rw [World.warn_letGo,
        BufferObject.destroy_letGo (w := w.warn (.replacedLocked i old.id)) hw]
    · rw [BufferObject.destroy_letGo hw]

/-- A slot that is cleared leaves the others who hold the driver. -/
theorem clear_holders {n : Nat} (hw : n + objectReferences x.placed ≤ w.holders) (i : Nat) :
    n ≤ (x.clear D i w).2.holders := by
  rcases x.clear_cases D i w with ⟨_, hc⟩ | ⟨old, hold, hc⟩
  · rw [hc]
    exact (Nat.le_add_right ..).trans hw
  · have hle := placed_references hold
    have hwarn : (if old.locked then w.warn (.replacedLocked i old.id) else w).holders =
        w.holders := by
      split <;> rfl
    rw [hc, BufferObject.destroy_holders, hwarn]
    omega

theorem replace_letGo (hw : 2 + objectReferences x.placed ≤ w.holders) (i : Nat)
    (y : Option SlotBuffer) :
    x.replace D i y (w.letGo D) =
      ((x.replace D i y w).1, (x.replace D i y w).2.1, (x.replace D i y w).2.2.letGo D) := by
  simp only [replace]
  split
  · rw [clear_letGo (by omega)]
    cases y with
    | none => rfl
    | some y =>
      simp only [BufferObject.borrow_letGo (clear_holders hw i)]
  · split <;> rfl

theorem allocate_letGo (hw : 2 + objectReferences x.placed ≤ w.holders) (i : Nat) :
    x.allocate D i (w.letGo D) =
      ((x.allocate D i w).1, (x.allocate D i w).2.1, (x.allocate D i w).2.2.letGo D) := by
  simp only [allocate]
  split
  · rw [clear_letGo (by omega)]
    rcases h : BufferObject.create D (x.clear D i w).1.width (x.clear D i w).1.height
      (x.clear D i w).1.format.code ((x.clear D i w).1.usage.union .write) (x.clear D i w).2
      with ⟨_ | _, w₁⟩ <;>
      simp only [BufferObject.create_letGo (clear_holders hw i) h]
  · rfl

private theorem destroyAll_letGo {l : List (Option BufferObject)}
    (hw : objectReferences ((l.reduceOption : Multiset BufferObject).map (.slot, ·)) <
      w.holders) :
    l.foldl (fun w slot => match slot with
      | some b => b.destroy D w
      | none => w) (w.letGo D) =
    (l.foldl (fun w slot => match slot with
      | some b => b.destroy D w
      | none => w) w).letGo D := by
  induction l generalizing w with
  | nil => rfl
  | cons o l ih =>
    rw [List.foldl_cons, List.foldl_cons]
    cases o with
    | none => exact ih (by simpa using hw)
    | some b =>
      rw [List.reduceOption_cons_of_some, ← Multiset.cons_coe, Multiset.map_cons,
        objectReferences_cons] at hw
      dsimp only at hw ⊢
      rw [BufferObject.destroy_letGo (by omega), ih]
      rw [BufferObject.destroy_holders]
      omega

theorem destroy_letGo (hw : 1 + objectReferences x.placed < w.holders) :
    x.destroy D (w.letGo D) = (x.destroy D w).letGo D :=
  destroyAll_letGo (Nat.lt_sub_of_add_lt (Nat.add_comm 1 _ ▸ hw))

end Surface
end DisplayBuffers
