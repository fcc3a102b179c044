import Mathlib.Data.Multiset.AddSub
import Mathlib.Data.Multiset.Bind
import Mathlib.Logic.Relation
import DisplayBuffers.Proofs.Buffer
import DisplayBuffers.Proofs.World

/-! Custody of storage, descriptors and the driver. A move is one call to the world by somebody who
holds what the call is about; who calls the driver has a reference to it. Every operation on buffer
objects is a sequence of moves, whichever calls fail. -/
namespace DisplayBuffers
variable {σ ι : Type}

/-- Something that has to be given back: storage, with its mapping and the reference to the driver
that goes with it, an open descriptor, or a reference to the driver alone. -/
inductive Holding where
  | storage (s : Storage) (mapping : Option Address)
  | descriptor (d : Dmabuf)
  | reference
  deriving DecidableEq

/-- One call to the world. What the caller holds before and after it stands beside the world. -/
inductive Move (D : Driver σ ι) : Multiset Holding × World σ → Multiset Holding × World σ → Prop
  | allocated {H w w' kind width height format s} :
      w.allocate D kind width height format = (.ok s, w') →
      Move D (.reference ::ₘ H, w) (.storage s none ::ₘ H, w')
  | notAllocated {H w w' kind width height format e} : .reference ∈ H →
      w.allocate D kind width height format = (.error e, w') → Move D (H, w) (H, w')
  | mapped {H w w' s a} : w.map D s = (.ok a, w') →
      Move D (.storage s none ::ₘ H, w) (.storage s (some a) ::ₘ H, w')
  | notMapped {H w w' s e} : w.map D s = (.error e, w') →
      Move D (.storage s none ::ₘ H, w) (.storage s none ::ₘ H, w')
  | unmapped {H w s a} :
      Move D (.storage s (some a) ::ₘ H, w) (.storage s none ::ₘ H, w.unmap D s a)
  | released {H w s} : Move D (.storage s none ::ₘ H, w) (.reference ::ₘ H, w.release D s)
  | exported {H w w' handle flags d} : .reference ∈ H →
      w.exportHandle D handle flags = (.ok d, w') → Move D (H, w) (.descriptor d ::ₘ H, w')
  | notExported {H w w' handle flags e} : .reference ∈ H →
      w.exportHandle D handle flags = (.error e, w') → Move D (H, w) (H, w')
  | duplicated {H w w' d d'} : .reference ∈ H → .descriptor d ∈ H →
      w.duplicate D d = (.ok d', w') → Move D (H, w) (.descriptor d' ::ₘ H, w')
  | notDuplicated {H w w' d e} : .reference ∈ H → .descriptor d ∈ H →
      w.duplicate D d = (.error e, w') → Move D (H, w) (H, w')
  | closed {H w d} : Move D (.descriptor d ::ₘ H, w) (H, w.close d)
  | imported {H w d} : .reference ∈ H → .descriptor d ∈ H →
      Move D (H, w) (H, (w.importDescriptor D d).2)
  | joined {H w} : .reference ∈ H → Move D (H, w) (.reference ::ₘ H, w.hold)
  | left {H w} : Move D (.reference ::ₘ H, w) (H, w.letGo D)
  | named {H w} : Move D (H, w) (H, w.freshId.2)
  | warned {H w} (x : Warning) : Move D (H, w) (H, w.warn x)
  | stored {H w} (m : Memory) : Move D (H, w) (H, { w with memory := m })
  | outside {H w} (i : ι) : Move D (H, w) (H, w.outside D i)

/-- Events are only added and numbers are only counted upwards. -/
structure World.Advances (w w' : World σ) : Prop where
  events : w.events <+: w'.events
  allocations : w.allocations ≤ w'.allocations
  identities : w.identities ≤ w'.identities

theorem World.Advances.refl (w : World σ) : w.Advances w := ⟨List.prefix_rfl, le_rfl, le_rfl⟩

theorem World.Advances.trans {w₁ w₂ w₃ : World σ} (h : w₁.Advances w₂) (k : w₂.Advances w₃) :
    w₁.Advances w₃ :=
  ⟨h.events.trans k.events, h.allocations.trans k.allocations, h.identities.trans k.identities⟩

theorem Move.advances {D : Driver σ ι} {x y : Multiset Holding × World σ} (h : Move D x y) :
    x.2.Advances y.2 := by
  cases h with
  | allocated h =>
    obtain ⟨_, _, rfl⟩ := World.allocate_ok h
    exact ⟨List.prefix_append _ _, Nat.le_succ _, le_rfl⟩
  | notAllocated hr h =>
    rw [World.allocate_error h]
    exact ⟨List.prefix_append _ _, le_rfl, le_rfl⟩
  | mapped h =>
    rw [World.map_eq h]
    exact ⟨List.prefix_append _ _, le_rfl, le_rfl⟩
  | notMapped h =>
    rw [World.map_eq h]
    exact ⟨List.prefix_append _ _, le_rfl, le_rfl⟩
  | @unmapped H w s a =>
    obtain ⟨r, warnings, hw⟩ := w.unmap_eq D s a
    rw [hw]
    exact ⟨List.prefix_append _ _, le_rfl, le_rfl⟩
  | @released H w s =>
    obtain ⟨r, warnings, hw⟩ := w.release_eq D s
    rw [hw]
    exact ⟨List.prefix_append _ _, le_rfl, le_rfl⟩
  | exported hr h =>
    rw [World.exportHandle_ok h]
    exact ⟨List.prefix_append _ _, le_rfl, le_rfl⟩
  | notExported hr h =>
    rw [World.exportHandle_error h]
    exact ⟨List.prefix_append _ _, le_rfl, le_rfl⟩
  | duplicated hr hd h =>
    rw [(World.duplicate_ok h).2]
    exact ⟨List.prefix_append _ _, le_rfl, le_rfl⟩
  | notDuplicated hr hd h =>
    rw [World.duplicate_error h]
    exact ⟨List.prefix_append _ _, le_rfl, le_rfl⟩
  | closed => exact ⟨List.prefix_append _ _, le_rfl, le_rfl⟩
  | imported hr hd => exact ⟨List.prefix_append _ _, le_rfl, le_rfl⟩
  | named => exact ⟨List.prefix_rfl, le_rfl, Nat.le_succ _⟩
  | warned x => exact ⟨List.prefix_append _ _, le_rfl, le_rfl⟩
  | stored m => exact ⟨List.prefix_rfl, le_rfl, le_rfl⟩
  | outside i => exact ⟨List.prefix_rfl, le_rfl, le_rfl⟩
  | joined hr => exact ⟨List.prefix_rfl, le_rfl, le_rfl⟩
  | left => exact ⟨List.prefix_rfl, le_rfl, le_rfl⟩

def Moves (D : Driver σ ι) : Multiset Holding × World σ → Multiset Holding × World σ → Prop :=
  Relation.ReflTransGen (Move D)

namespace Moves
variable {D : Driver σ ι}

theorem refl {x : Multiset Holding × World σ} : Moves D x x := Relation.ReflTransGen.refl

theorem one {x y : Multiset Holding × World σ} (h : Move D x y) : Moves D x y := .single h

theorem trans {x y z : Multiset Holding × World σ} (h : Moves D x y) (k : Moves D y z) :
    Moves D x z := Relation.ReflTransGen.trans h k

/-- What every move keeps is kept by all of them together. -/
theorem keeps {I : Multiset Holding × World σ → Prop} (step : ∀ x y, Move D x y → I x → I y)
    {x y : Multiset Holding × World σ} (h : Moves D x y) (hx : I x) : I y := by
  induction h with
  | refl => exact hx
  | tail _ m ih => exact step _ _ m ih

theorem advances {x y : Multiset Holding × World σ} (h : Moves D x y) : x.2.Advances y.2 :=
  h.keeps (I := fun z => x.2.Advances z.2) (fun _ _ m hz => hz.trans m.advances) (.refl x.2)

end Moves

namespace BufferObject
variable {D : Driver σ ι}

/-- What a buffer object has to give back: what its backing is, and its own reference to the
driver. -/
def holdings (b : BufferObject) : Multiset Holding :=
  .reference ::ₘ match b.backing with
    | .owned s d => {.storage s b.mapping, .descriptor d}
    | .borrowed d _ => (d.toList.map Holding.descriptor : List Holding)

/-- The references to the driver among what an object has to give back. -/
def driverReferences (b : BufferObject) : Nat :=
  match b.backing with
  | .owned _ _ => 2
  | .borrowed _ _ => 1

theorem reference_mem_holdings (b : BufferObject) : .reference ∈ b.holdings :=
  Multiset.mem_cons_self _ _

theorem holdings_owned {b : BufferObject} {s : Storage} {d : Dmabuf}
    (h : b.backing = .owned s d) :
    b.holdings = .reference ::ₘ .storage s b.mapping ::ₘ {.descriptor d} := by
  rw [holdings, h]
  rfl

theorem holdings_owned_add {b : BufferObject} {s : Storage} {d : Dmabuf}
    (h : b.backing = .owned s d) (H : Multiset Holding) :
    b.holdings + H = .storage s b.mapping ::ₘ .reference ::ₘ .descriptor d ::ₘ H := by
  rw [holdings_owned h, Multiset.cons_swap, Multiset.cons_add, Multiset.cons_add,
    Multiset.singleton_add]

theorem holdings_borrowed {b : BufferObject} {d : Option Dmabuf} {a : Option Address}
    (h : b.backing = .borrowed d a) :
    b.holdings = .reference ::ₘ (d.toList.map Holding.descriptor : List Holding) := by
  rw [holdings, h]

theorem descriptor_mem_holdings {b : BufferObject} {d : Dmabuf} (h : b.descriptor? = some d) :
    .descriptor d ∈ b.holdings := by
  cases hb : b.backing with
  | owned s d' =>
    have hd : d' = d := by simpa [descriptor?, hb] using h
    simp [holdings_owned hb, hd]
  | borrowed d' a =>
    have hd : d' = some d := by simpa [descriptor?, hb] using h
    simp [holdings_borrowed hb, hd]

theorem acquire_moves {b b' : BufferObject} {w w' : World σ} {r : Except Error Address}
    (H : Multiset Holding) (h : b.acquire D w = (r, b', w')) :
    Moves D (b.holdings + H, w) (b'.holdings + H, w') := by
  cases acquired h with
  | again hb hm =>
    rw [holdings_owned_add hb, holdings_owned_add (b := b.retain _) hb, hm]
    exact .refl
  | first hb hm hw =>
    rw [holdings_owned_add hb, holdings_owned_add (b := b.retain _) hb, hm]
    exact .one (.mapped hw)
  | failed hb hm hw =>
    rw [holdings_owned_add hb, hm]
    exact .one (.notMapped hw)
  | lent hb =>
    rw [holdings_borrowed hb, holdings_borrowed (b := b.retain _) hb]
    exact .refl
  | refused hb => exact .refl

theorem release_moves (b : BufferObject) (w : World σ) (H : Multiset Holding) :
    Moves D (b.holdings + H, w) ((b.release D w).1.holdings + H, (b.release D w).2) := by
  have h := released D b w
  generalize (b.release D w).1 = b' at h ⊢
  generalize (b.release D w).2 = w' at h ⊢
  cases h with
  | idle hm => exact .refl
  | unmapped hb hm hr =>
    rw [holdings_owned_add hb,
      holdings_owned_add (b := { b with mapping := none, references := 0 }) hb, hm]
    exact .one .unmapped
  | returned hb hm hr =>
    rw [holdings_borrowed hb,
      holdings_borrowed (b := { b with mapping := none, references := 0 }) hb]
    exact .refl
  | kept hm hr => exact .refl

/-- Owned storage without a mapping is given back with its descriptor and its hold of the driver. -/
private theorem giveBack_moves {s : Storage} {d : Dmabuf} (w : World σ) (H : Multiset Holding) :
    Moves D (.storage s none ::ₘ .descriptor d ::ₘ H, w)
      (H, ((w.close d).release D s).letGo D) := by
  rw [Multiset.cons_swap]
  exact ((Moves.one .closed).trans (.one .released)).trans (.one .left)

/-- Destruction gives back all that the object held, in the one order that custody allows. -/
theorem destroy_moves (b : BufferObject) (w : World σ) (H : Multiset Holding) :
    Moves D (b.holdings + H, w) (H, b.destroy D w) := by
  have hwarn : Moves D (b.holdings + H, w)
      (b.holdings + H, if b.locked then w.warn (.destroyedLocked b.id) else w) := by
    split
    · exact .one (.warned _)
    · exact .refl
  refine hwarn.trans ?_
  rw [destroy]
  generalize (if b.locked then w.warn (.destroyedLocked b.id) else w) = w
  cases hb : b.backing with
  | owned s d =>
    rw [holdings_owned_add hb, Multiset.cons_swap]
    refine (Moves.one .left).trans ?_
    cases hm : b.mapping with
    | none => exact giveBack_moves _ H
    | some a => exact (Moves.one .unmapped).trans (giveBack_moves _ H)
  | borrowed d x =>
    rw [holdings_borrowed hb, Multiset.cons_add]
    refine (Moves.one .left).trans ?_
    cases d with
    | none =>
      rw [show ((Option.toList (none : Option Dmabuf)).map Holding.descriptor : Multiset Holding) +
        H = H from zero_add H]
      exact .refl
    | some d => exact .one .closed

section
variable {H : Multiset Holding} (hr : .reference ∈ H)
include hr

/-- Whoever holds the driver can get storage that holds it too. -/
private theorem allocate_moves {width height : UInt32} {kind : BufferKind} {format : PixelFormat}
    {w w' : World σ} {s : Storage}
    (ha : w.allocate D kind width height format = (.ok s, w')) :
    Moves D (H, w) (.storage s none ::ₘ H, w'.hold) :=
  (Moves.one (.joined hr)).trans (.one (.allocated (World.allocate_hold ha)))

private theorem export_moves {width height : UInt32} {kind : BufferKind} {format : PixelFormat}
    {w w₁ w₂ : World σ} {s : Storage} {d : Dmabuf}
    (ha : w.allocate D kind width height format = (.ok s, w₁))
    (he : w₁.hold.exportHandle D s.handle .closeOnExec = (.ok d, w₂)) :
    Moves D (H, w) (.storage s none ::ₘ .reference ::ₘ .descriptor d ::ₘ H, w₂.freshId.2.hold) := by
  have hd : Moves D (H, w) (.descriptor d ::ₘ .storage s none ::ₘ H, w₂.freshId.2) :=
    (allocate_moves hr ha).trans
      ((Moves.one (.exported (Multiset.mem_cons_of_mem hr) he)).trans (.one .named))
  have hh : .reference ∈ .descriptor d ::ₘ .storage s none ::ₘ H :=
    Multiset.mem_cons_of_mem (Multiset.mem_cons_of_mem hr)
  refine hd.trans ?_
  rw [Multiset.cons_swap (Holding.storage s none), Multiset.cons_swap (Holding.storage s none)]
  exact .one (.joined hh)

theorem create_ok_moves {width height : UInt32} {code : FormatCode} {usage : Usage}
    {w w' : World σ} {b : BufferObject}
    (h : create D width height code usage w = (.ok b, w')) :
    Moves D (H, w) (b.holdings + H, w') := by
  cases created h with
  | unmapped hf ha he hu =>
    rw [holdings_owned_add rfl]
    exact export_moves hr ha he
  | mapped hf ha he hu hm =>
    rw [holdings_owned_add rfl]
    exact (export_moves hr ha he).trans (.one (.mapped hm))

/-- Creation that fails leaves nothing in hand, whichever step failed. -/
theorem create_error_moves {width height : UInt32} {code : FormatCode} {usage : Usage}
    {w w' : World σ} {e : Error}
    (h : create D width height code usage w = (.error e, w')) : Moves D (H, w) (H, w') := by
  cases created h with
  | unsupported hf => exact .refl
  | notAllocated hf ha => exact .one (.notAllocated hr ha)
  | notExported hf ha he =>
    exact (allocate_moves hr ha).trans
      ((Moves.one (.notExported (Multiset.mem_cons_of_mem hr) he)).trans
        ((Moves.one .released).trans (.one .left)))
  | notMapped hf ha he hu hm =>
    refine (export_moves hr ha he).trans ((Moves.one (.notMapped hm)).trans ?_)
    rw [Multiset.cons_swap]
    exact (Moves.one .left).trans (giveBack_moves _ H)

end

theorem share_ok_moves {b : BufferObject} {w w' : World σ} {d : Dmabuf} (H : Multiset Holding)
    (h : b.share D w = (.ok d, w')) :
    Moves D (b.holdings + H, w) (.descriptor d ::ₘ (b.holdings + H), w') := by
  have hr : .reference ∈ b.holdings + H := Multiset.mem_add.mpr (.inl b.reference_mem_holdings)
  cases shared h with
  | duplicated hn hd hw =>
    exact .one (.duplicated hr (Multiset.mem_add.mpr (.inl (descriptor_mem_holdings hd))) hw)
  | exported hn hw => exact .one (.exported hr hw)

theorem share_error_moves {b : BufferObject} {w w' : World σ} {e : Error} (H : Multiset Holding)
    (h : b.share D w = (.error e, w')) : Moves D (b.holdings + H, w) (b.holdings + H, w') := by
  have hr : .reference ∈ b.holdings + H := Multiset.mem_add.mpr (.inl b.reference_mem_holdings)
  cases shared h with
  | nothing hn hd => exact .refl
  | notDuplicated hn hd hw =>
    exact .one (.notDuplicated hr (Multiset.mem_add.mpr (.inl (descriptor_mem_holdings hd))) hw)
  | notExported hn hw => exact .one (.notExported hr hw)

/-- A new object over storage of somebody else, which takes over a descriptor. -/
theorem borrow_moves {width height : UInt32} {format : FormatCode} {planes : List Plane}
    {descriptor : Option Dmabuf} {address : Option Address} {w w' : World σ} {b : BufferObject}
    {H : Multiset Holding} (hr : .reference ∈ H)
    (h : borrow width height format planes descriptor address w = (b, w')) :
    Moves D ((descriptor.toList.map Holding.descriptor : List Holding) + H, w)
      (b.holdings + H, w') := by
  obtain ⟨rfl, rfl⟩ := Prod.mk.inj h
  rw [holdings_borrowed rfl, Multiset.cons_add]
  exact (Moves.one .named).trans (.one (.joined (Multiset.mem_add.mpr (.inr hr))))

end BufferObject
end DisplayBuffers
