import DisplayBuffers.Proofs.Origins

/-! Conservation of descriptors. Every open descriptor has one holder, and each that was opened or
received is open still or was closed once. -/
namespace DisplayBuffers
variable {σ ι : Type} {D : Driver σ ι}

/-- The descriptor that a call opened. -/
def Event.opened? : Event → Option Dmabuf
  | .exportHandle _ _ (.ok d) => some d
  | .duplicate d (.ok _) => some d
  | _ => none

def Event.closed? : Event → Option Dmabuf
  | .close d => some d
  | _ => none

def Holding.descriptor? : Holding → Option Dmabuf
  | .storage _ _ | .reference => none
  | .descriptor d => some d

private theorem descriptors_of_storage (s : Storage) (m : Option Address) (H : Multiset Holding) :
    (Holding.storage s m ::ₘ H).filterMap Holding.descriptor? =
      H.filterMap Holding.descriptor? :=
  Multiset.filterMap_cons_none _ _ rfl

private theorem descriptors_of_reference (H : Multiset Holding) :
    (Holding.reference ::ₘ H).filterMap Holding.descriptor? = H.filterMap Holding.descriptor? :=
  Multiset.filterMap_cons_none _ _ rfl

private theorem descriptors_cons (d : Dmabuf) (H : Multiset Holding) :
    (Holding.descriptor d ::ₘ H).filterMap Holding.descriptor? =
      d ::ₘ H.filterMap Holding.descriptor? :=
  Multiset.filterMap_cons_some _ _ _ rfl

private theorem filterMap_snoc_some {f : Event → Option Dmabuf} {e : Event} {d : Dmabuf}
    (h : f e = some d) (l : List Event) :
    (((l ++ [e]).filterMap f : List Dmabuf) : Multiset Dmabuf) =
      d ::ₘ (l.filterMap f : List Dmabuf) := by
  rw [List.filterMap_append, List.filterMap_cons_some h, ← Multiset.coe_add, add_comm]
  rfl

private theorem filterMap_snoc_none {f : Event → Option Dmabuf} {e : Event} (h : f e = none)
    (l : List Event) : (l ++ [e]).filterMap f = l.filterMap f := by
  rw [List.filterMap_append, List.filterMap_cons_none h, List.filterMap_nil, List.append_nil]

/-- The open descriptors are those that somebody holds. Together with those that were closed they
are what was opened here and what others handed over. -/
structure Accounted (received : Multiset Dmabuf) (x : Multiset Holding × World σ) : Prop where
  holders : (x.2.descriptors : Multiset Dmabuf) = x.1.filterMap Holding.descriptor?
  ledger : (x.2.descriptors : Multiset Dmabuf) + x.2.events.filterMap Event.closed? =
    x.2.events.filterMap Event.opened? + received

namespace Accounted
variable {R : Multiset Dmabuf} {H G : Multiset Holding} {w w' : World σ} {d : Dmabuf}

theorem quiet (h : Accounted R (H, w)) (es : List Event)
    (ho : es.filterMap Event.opened? = []) (hc : es.filterMap Event.closed? = [])
    (he : w'.events = w.events ++ es) (hd : w'.descriptors = w.descriptors)
    (hk : G.filterMap Holding.descriptor? = H.filterMap Holding.descriptor?) :
    Accounted R (G, w') := by
  obtain ⟨hh, hl⟩ := h
  refine ⟨?_, ?_⟩
  · rw [hd, hk]
    exact hh
  · rw [he, hd, List.filterMap_append, List.filterMap_append, ho, hc, List.append_nil,
      List.append_nil]
    exact hl

theorem opened (h : Accounted R (H, w)) {e : Event} (ho : e.opened? = some d)
    (hc : e.closed? = none) (he : w'.events = w.events ++ [e])
    (hd : w'.descriptors = d :: w.descriptors) : Accounted R (.descriptor d ::ₘ H, w') := by
  obtain ⟨hh, hl⟩ := h
  refine ⟨?_, ?_⟩
  · simp only [descriptors_cons, hd, ← Multiset.cons_coe]
    exact congrArg _ hh
  · rw [hd, he, filterMap_snoc_some ho, filterMap_snoc_none hc, ← Multiset.cons_coe,
      Multiset.cons_add, Multiset.cons_add]
    exact congrArg _ hl

/-- Only what is open can be closed, and it is open no more. -/
theorem closed (h : Accounted R (.descriptor d ::ₘ H, w)) : Accounted R (H, w.close d) := by
  obtain ⟨hh, hl⟩ := h
  simp only [descriptors_cons] at hh hl
  have hd : d ∈ w.descriptors := by
    rw [← Multiset.mem_coe, hh]
    exact Multiset.mem_cons_self _ _
  refine ⟨?_, ?_⟩
  · change ((w.descriptors.erase d : List Dmabuf) : Multiset Dmabuf) = _
    rw [← Multiset.coe_erase, hh, Multiset.erase_cons_head]
  · simp only [World.close, World.record]
    rw [filterMap_snoc_some (d := d) rfl, filterMap_snoc_none rfl, ← hl, Multiset.add_cons,
      ← Multiset.cons_add, ← Multiset.coe_erase, Multiset.cons_erase hd]

theorem received (h : Accounted R (H, w)) :
    Accounted ((w.receive D).1 ::ₘ R)
      (.descriptor (w.receive D).1 ::ₘ H, (w.receive D).2) := by
  obtain ⟨hh, hl⟩ := h
  refine ⟨?_, ?_⟩
  · simp only [World.receive_eq, descriptors_cons, ← Multiset.cons_coe]
    exact congrArg _ hh
  · simp only [World.receive_eq, ← Multiset.cons_coe, Multiset.cons_add, Multiset.add_cons]
    exact congrArg _ hl

end Accounted

private theorem warnings_quiet (f : Event → Option Dmabuf) (hf : ∀ x, f (.warn x) = none)
    (warnings : List Warning) : (warnings.map Event.warn).filterMap f = [] := by
  induction warnings with
  | nil => rfl
  | cons x warnings ih =>
    rw [List.map_cons, List.filterMap_cons_none (hf x)]
    exact ih

theorem Move.accounted {R : Multiset Dmabuf} {x y : Multiset Holding × World σ} (h : Move D x y)
    (hx : Accounted R x) : Accounted R y := by
  cases h with
  | allocated h =>
    obtain ⟨_, _, rfl⟩ := World.allocate_ok h
    exact hx.quiet [_] rfl rfl rfl rfl
      (by rw [descriptors_of_storage, descriptors_of_reference])
  | notAllocated hr h =>
    rw [World.allocate_error h]
    exact hx.quiet [_] rfl rfl rfl rfl rfl
  | mapped h =>
    rw [World.map_eq h]
    exact hx.quiet [_] rfl rfl rfl rfl
      (by rw [descriptors_of_storage, descriptors_of_storage])
  | notMapped h =>
    rw [World.map_eq h]
    exact hx.quiet [_] rfl rfl rfl rfl rfl
  | @unmapped H w s a =>
    obtain ⟨r, warnings, hw⟩ := w.unmap_eq D s a
    rw [hw]
    exact hx.quiet (_ :: _) (warnings_quiet _ (fun _ => rfl) warnings)
      (warnings_quiet _ (fun _ => rfl) warnings) rfl rfl
      (by rw [descriptors_of_storage, descriptors_of_storage])
  | @released H w s =>
    obtain ⟨r, warnings, hw⟩ := w.release_eq D s
    rw [hw]
    exact hx.quiet (_ :: _) (warnings_quiet _ (fun _ => rfl) warnings)
      (warnings_quiet _ (fun _ => rfl) warnings) rfl rfl
      (by rw [descriptors_of_storage, descriptors_of_reference])
  | exported hr h =>
    rw [World.exportHandle_ok h]
    exact hx.opened rfl rfl rfl rfl
  | notExported hr h =>
    rw [World.exportHandle_error h]
    exact hx.quiet [_] rfl rfl rfl rfl rfl
  | duplicated hr hd h =>
    obtain ⟨rfl, rfl⟩ := World.duplicate_ok h
    exact hx.opened rfl rfl rfl rfl
  | notDuplicated hr hd h =>
    rw [World.duplicate_error h]
    exact hx.quiet [_] rfl rfl rfl rfl rfl
  | closed => exact hx.closed
  | imported hr hd => exact hx.quiet [_] rfl rfl rfl rfl rfl
  | named => exact hx.quiet [] rfl rfl (List.append_nil _).symm rfl rfl
  | warned x => exact hx.quiet [_] rfl rfl rfl rfl rfl
  | stored m => exact hx.quiet [] rfl rfl (List.append_nil _).symm rfl rfl
  | outside i => exact hx.quiet [] rfl rfl (List.append_nil _).symm rfl rfl
  | joined hr =>
    exact hx.quiet [] rfl rfl (List.append_nil _).symm rfl (descriptors_of_reference _)
  | left =>
    exact hx.quiet [] rfl rfl (List.append_nil _).symm rfl (descriptors_of_reference _).symm

/-- The descriptor that an object got from its own creation. -/
def BufferObject.exported? (b : BufferObject) : Option Dmabuf :=
  match b.backing with
  | .owned _ d => some d
  | .borrowed _ _ => none

/-- The descriptor that came with a buffer when it was put into a slot. -/
def installed? : Place × BufferObject → Option Dmabuf
  | (.slot, b) =>
    match b.backing with
    | .owned _ _ => none
    | .borrowed d _ => d
  | (.own, _) => none

private theorem Origin.descriptors {events : List Event} {x : Place × BufferObject}
    (h : Origin events x) :
    x.2.holdings.filterMap Holding.descriptor? =
      (x.2.exported?.map singleton).getD 0 + ((installed? x).map singleton).getD 0 := by
  cases h with
  | @created p b _ _ _ _ hb =>
    rw [BufferObject.holdings_owned hb, descriptors_of_reference]
    cases p <;> simp only [BufferObject.exported?, installed?, hb] <;> rfl
  | imported hb =>
    rw [BufferObject.holdings_borrowed hb, descriptors_of_reference]
    simp only [BufferObject.exported?, installed?, hb]
    rfl
  | @installed b d a hb =>
    rw [BufferObject.holdings_borrowed hb, descriptors_of_reference]
    cases d <;> simp only [BufferObject.exported?, installed?, hb] <;> rfl

/-- Whoever holds descriptors got them in one of three ways. -/
theorem Estate.Traced.descriptors {e : Estate σ} (h : e.Traced) :
    e.holdings.filterMap Holding.descriptor? =
      e.held + e.live.filterMap (·.2.exported?) + e.live.filterMap installed? := by
  have hheld : (e.held.map Holding.descriptor).filterMap Holding.descriptor? = e.held := by
    rw [Multiset.filterMap_map]
    exact Multiset.filterMap_some e.held
  have husers (n : Nat) :
      (Multiset.replicate n Holding.reference).filterMap Holding.descriptor? = 0 := by
    induction n with
    | zero => rfl
    | succ n ih => rw [Multiset.replicate_succ, descriptors_of_reference, ih]
  have hlive (L : Multiset (Place × BufferObject)) (hL : ∀ x ∈ L, Origin e.world.events x) :
      (L.bind fun x => x.2.holdings).filterMap Holding.descriptor? =
        L.filterMap (·.2.exported?) + L.filterMap installed? := by
    induction L using Multiset.induction_on with
    | empty => rfl
    | cons x L ih =>
      rw [Multiset.cons_bind, Multiset.filterMap_add,
        ih (fun y hy => hL y (Multiset.mem_cons_of_mem hy)),
        (hL x (Multiset.mem_cons_self _ _)).descriptors, Multiset.filterMap_cons,
        Multiset.filterMap_cons]
      exact add_add_add_comm _ _ _ _
  rw [Estate.holdings, Multiset.filterMap_add, Multiset.filterMap_add, hheld, husers, add_zero,
    hlive e.live h, add_comm, add_assoc]

namespace Session

/-- What another process hands to the client in one operation. -/
def received (D : Driver σ ι) (s : Session σ) : Op ι → Multiset Dmabuf
  | .receive _ => {(s.world.receive D).1}
  | _ => 0

def receipts (D : Driver σ ι) (s : Session σ) : List (Op ι) → Multiset Dmabuf
  | [] => 0
  | op :: ops => s.received D op + (s.step D op).2.receipts D ops

private theorem supplied_accounted {R : Multiset Dmabuf} {s : Session σ}
    (h : Accounted R (s.estate.holdings, s.world)) (op : Op ι) :
    Accounted (s.received D op + R) ((s.supplied D op).holdings, (s.supplied D op).world) := by
  cases op
  case receive name =>
    rw [received, supplied, Estate.holdings_held_cons, Multiset.singleton_add]
    exact h.received
  all_goals
    rw [received, zero_add]
    · exact h
    · simp

theorem run_accounted (ops : List (Op ι)) {R : Multiset Dmabuf} {s : Session σ}
    (h : Accounted R (s.estate.holdings, s.world)) :
    Accounted (s.receipts D ops + R)
      ((s.run D ops).2.estate.holdings, (s.run D ops).2.world) := by
  induction ops generalizing s R with
  | nil =>
    rw [receipts, zero_add]
    exact h
  | cons op ops ih =>
    have hstep : Accounted (s.received D op + R)
        ((s.step D op).2.estate.holdings, (s.step D op).2.world) :=
      (step_changes s op).moves.keeps (fun _ _ => Move.accounted) (supplied_accounted h op)
    have hrun := ih hstep
    rw [← add_assoc, add_comm ((s.step D op).2.receipts D ops)] at hrun
    exact hrun

/-- After every run, and so after each operation of it, the open descriptors are those that the
client holds, one for each live object that owns storage, from the export of its own creation, and
one for each live slot buffer that was installed with one. What was opened and received is open
still or was closed, by as many calls. -/
theorem descriptors_conserved (D : Driver σ ι) (d : σ) (ops : List (Op ι)) :
    let s := ((start d).run D ops).2
    (s.world.descriptors : Multiset Dmabuf) =
        s.held + s.live.filterMap (·.2.exported?) + s.live.filterMap installed? ∧
      (∀ x ∈ s.live, Origin s.world.events x) ∧
      (s.world.descriptors : Multiset Dmabuf) + s.world.events.filterMap Event.closed? =
        s.world.events.filterMap Event.opened? + (start d).receipts D ops := by
  intro s
  have htraced : s.estate.Traced := origin_of_live D d ops
  have hstart : Accounted 0 ((start d).estate.holdings, (start d).world) := ⟨rfl, rfl⟩
  have h : Accounted ((start d).receipts D ops + 0) (s.estate.holdings, s.world) :=
    run_accounted ops hstart
  rw [add_zero] at h
  exact ⟨h.holders.trans htraced.descriptors, htraced, h.ledger⟩

end Session
end DisplayBuffers
