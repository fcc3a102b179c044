import DisplayBuffers.Proofs.Custody

/-! What a client owns, without the names it uses, and the changes that operations on buffer
objects and descriptors make to it. Every operation of a session is a sequence of such changes. -/
namespace DisplayBuffers
open BufferObject (Access)
variable {σ ι : Type}

/-- Where a buffer object is kept: by the client itself, or in a slot of a surface. -/
inductive Place where
  | own
  | slot
  deriving DecidableEq

/-- The buffer objects that are alive, the client's own descriptors, the number of those that hold
the driver besides the objects, which are the device and the surfaces, and the world. -/
structure Estate (σ : Type) where
  live : Multiset (Place × BufferObject)
  held : Multiset Dmabuf
  users : Nat
  world : World σ

/-- A client's access to one buffer object. -/
inductive Use (D : Driver σ ι) : BufferObject → World σ → BufferObject → World σ → Prop
  | acquire {b w r b' w'} (h : b.acquire D w = (r, b', w')) : Use D b w b' w'
  | release {b w} : Use D b w (b.release D w).1 (b.release D w).2
  | access {b w a} (hm : b.mapping = some a) (x : Access) : Use D b w b (b.access D a w x).2

/-- One change to what the client owns. What is made is made by a user of the driver. Buffers are
locked in slots only; an imported object keeps no descriptor, and one that is installed takes the
client's. -/
inductive Change (D : Driver σ ι) : Estate σ → Estate σ → Prop
  | used {L H n p b w b' w'} (h : Use D b w b' w') :
      Change D ⟨(p, b) ::ₘ L, H, n, w⟩ ⟨(p, b') ::ₘ L, H, n, w'⟩
  | locked {L H n b w} (v : Bool) :
      Change D ⟨(.slot, b) ::ₘ L, H, n, w⟩ ⟨(.slot, { b with locked := v }) ::ₘ L, H, n, w⟩
  | shared {L H n p b w d w'} (h : b.share D w = (.ok d, w')) :
      Change D ⟨(p, b) ::ₘ L, H, n, w⟩ ⟨(p, b) ::ₘ L, d ::ₘ H, n, w'⟩
  | notShared {L H n p b w e w'} (h : b.share D w = (.error e, w')) :
      Change D ⟨(p, b) ::ₘ L, H, n, w⟩ ⟨(p, b) ::ₘ L, H, n, w'⟩
  | created {L H n width height code usage w b w'} (p : Place)
      (h : BufferObject.create D width height code usage w = (.ok b, w')) :
      Change D ⟨L, H, n + 1, w⟩ ⟨(p, b) ::ₘ L, H, n + 1, w'⟩
  | notCreated {L H n width height code usage w e w'}
      (h : BufferObject.create D width height code usage w = (.error e, w')) :
      Change D ⟨L, H, n + 1, w⟩ ⟨L, H, n + 1, w'⟩
  | imported {L H n width height format planes w b w'}
      (h : BufferObject.borrow width height format planes none none w = (b, w')) :
      Change D ⟨L, H, n + 1, w⟩ ⟨(.own, b) ::ₘ L, H, n + 1, w'⟩
  | installed {L H n width height format stride address w b w'} {descriptor : Option Dmabuf}
      (h : BufferObject.borrow width height format [⟨.null, stride⟩] descriptor address w =
        (b, w')) :
      Change D ⟨L, (descriptor.toList : Multiset Dmabuf) + H, n + 1, w⟩
        ⟨(.slot, b) ::ₘ L, H, n + 1, w'⟩
  | destroyed {L H n p b w} : Change D ⟨(p, b) ::ₘ L, H, n, w⟩ ⟨L, H, n, b.destroy D w⟩
  | exported {L H n handle flags w d w'} (h : w.exportHandle D handle flags = (.ok d, w')) :
      Change D ⟨L, H, n + 1, w⟩ ⟨L, d ::ₘ H, n + 1, w'⟩
  | notExported {L H n handle flags w e w'}
      (h : w.exportHandle D handle flags = (.error e, w')) :
      Change D ⟨L, H, n + 1, w⟩ ⟨L, H, n + 1, w'⟩
  | converted {L H n d w} (hd : d ∈ H) :
      Change D ⟨L, H, n + 1, w⟩ ⟨L, H, n + 1, (w.importDescriptor D d).2⟩
  | closed {L H n d w} : Change D ⟨L, d ::ₘ H, n, w⟩ ⟨L, H, n, w.close d⟩
  | joined {L H n w} : Change D ⟨L, H, n + 1, w⟩ ⟨L, H, n + 2, w.hold⟩
  | left {L H n w} : Change D ⟨L, H, n + 1, w⟩ ⟨L, H, n, w.letGo D⟩
  | warned {L H n w} (x : Warning) : Change D ⟨L, H, n, w⟩ ⟨L, H, n, w.warn x⟩
  | outside {L H n w} (i : ι) : Change D ⟨L, H, n, w⟩ ⟨L, H, n, w.outside D i⟩

def Changes (D : Driver σ ι) : Estate σ → Estate σ → Prop := Relation.ReflTransGen (Change D)

namespace Changes
variable {D : Driver σ ι}

theorem refl {e : Estate σ} : Changes D e e := Relation.ReflTransGen.refl

theorem one {e f : Estate σ} (h : Change D e f) : Changes D e f := .single h

theorem trans {e f g : Estate σ} (h : Changes D e f) (k : Changes D f g) : Changes D e g :=
  Relation.ReflTransGen.trans h k

/-- What every change keeps is kept by all of them together. -/
theorem keeps {I : Estate σ → Prop} (step : ∀ e f, Change D e f → I e → I f) {e f : Estate σ}
    (h : Changes D e f) (he : I e) : I f := by
  induction h with
  | refl => exact he
  | tail _ c ih => exact step _ _ c ih

end Changes

namespace Estate

/-- All that has to be given back. -/
def holdings (e : Estate σ) : Multiset Holding :=
  e.live.bind (fun x => x.2.holdings) + e.held.map .descriptor + .replicate e.users .reference

theorem holdings_cons (p : Place) (b : BufferObject) (L : Multiset (Place × BufferObject))
    (H : Multiset Dmabuf) (n : Nat) (w : World σ) :
    (Estate.mk ((p, b) ::ₘ L) H n w).holdings = b.holdings + (Estate.mk L H n w).holdings := by
  simp only [holdings, Multiset.cons_bind, add_assoc]

theorem holdings_held_cons (L : Multiset (Place × BufferObject)) (d : Dmabuf) (H : Multiset Dmabuf)
    (n : Nat) (w : World σ) :
    (Estate.mk L (d ::ₘ H) n w).holdings = .descriptor d ::ₘ (Estate.mk L H n w).holdings := by
  simp only [holdings, Multiset.map_cons, Multiset.add_cons, Multiset.cons_add]

theorem holdings_held_add (L : Multiset (Place × BufferObject)) (G H : Multiset Dmabuf) (n : Nat)
    (w : World σ) :
    (Estate.mk L (G + H) n w).holdings = G.map .descriptor + (Estate.mk L H n w).holdings := by
  simp only [holdings, Multiset.map_add, add_left_comm, add_assoc]

theorem holdings_users_succ (L : Multiset (Place × BufferObject)) (H : Multiset Dmabuf) (n : Nat)
    (w : World σ) :
    (Estate.mk L H (n + 1) w).holdings = .reference ::ₘ (Estate.mk L H n w).holdings := by
  simp only [holdings, Multiset.replicate_succ, Multiset.add_cons]

theorem mem_holdings {e : Estate σ} {x : Place × BufferObject} (hx : x ∈ e.live) {h : Holding}
    (hh : h ∈ x.2.holdings) : h ∈ e.holdings :=
  Multiset.mem_add.mpr (.inl (Multiset.mem_add.mpr (.inl (Multiset.mem_bind.mpr ⟨x, hx, hh⟩))))

/-- Each thing to give back is an object's, the client's own descriptor or a user's reference. -/
theorem mem_holdings_cases {e : Estate σ} {h : Holding} (hh : h ∈ e.holdings) :
    (∃ x ∈ e.live, h ∈ x.2.holdings) ∨ (∃ d ∈ e.held, h = .descriptor d) ∨ h = .reference := by
  rcases Multiset.mem_add.mp hh with hh | hh
  · rcases Multiset.mem_add.mp hh with hh | hh
    · exact .inl (Multiset.mem_bind.mp hh)
    · obtain ⟨d, hd, rfl⟩ := Multiset.mem_map.mp hh
      exact .inr (.inl ⟨d, hd, rfl⟩)
  · exact .inr (.inr (Multiset.eq_of_mem_replicate hh))

/-- Every user of the driver has a reference to it. -/
theorem reference_mem_holdings (L : Multiset (Place × BufferObject)) (H : Multiset Dmabuf) (n : Nat)
    (w : World σ) : .reference ∈ (Estate.mk L H (n + 1) w).holdings := by
  rw [holdings_users_succ]
  exact Multiset.mem_cons_self _ _

end Estate

theorem BufferObject.access_memory (b : BufferObject) (D : Driver σ ι) (a : Address) (w : World σ)
    (x : Access) : ∃ m, (b.access D a w x).2 = { w with memory := m } := by
  cases x with
  | write data =>
    cases hm : b.mapping with
    | none => exact ⟨w.memory, by simp only [access, write, hm]⟩
    | some a =>
      by_cases hl : b.byteSize < data.length
      · exact ⟨w.memory, by simp only [access, write, hm, hl, if_true]⟩
      · exact ⟨w.memory.write (w.view D a) data, by simp only [access, write, hm, hl, if_false]⟩
  | poke offset value =>
    by_cases ho : offset < b.byteSize
    · exact ⟨w.memory.poke (w.view D a) offset value, by simp only [access, ho, if_true]⟩
    · exact ⟨w.memory, by simp only [access, ho, if_false]⟩
  | peek offset count =>
    refine ⟨w.memory, ?_⟩
    simp only [access]
    split <;> rfl
  | inspect => exact ⟨w.memory, rfl⟩

theorem BufferObject.accessAll_memory (b : BufferObject) (D : Driver σ ι) (a : Address)
    (xs : List Access) (w : World σ) :
    ∃ m, (b.accessAll D a xs w).2 = { w with memory := m } := by
  induction xs generalizing w with
  | nil => exact ⟨w.memory, rfl⟩
  | cons x xs ih =>
    obtain ⟨m, hm⟩ := b.access_memory D a w x
    obtain ⟨m', hm'⟩ := ih (b.access D a w x).2
    exact ⟨m', hm'.trans (by rw [hm])⟩

/-- Use changes the mapping of an object and nothing else of it. -/
theorem Use.same {D : Driver σ ι} {b b' : BufferObject} {w w' : World σ} (h : Use D b w b' w') :
    ∃ m r, b' = { b with mapping := m, references := r } := by
  cases h with
  | acquire h =>
    cases BufferObject.acquired h with
    | failed => exact ⟨b.mapping, b.references, rfl⟩
    | refused => exact ⟨b.mapping, b.references, rfl⟩
    | _ => exact ⟨_, _, rfl⟩
  | release =>
    have h := BufferObject.released D b w
    generalize (b.release D w).1 = b', (b.release D w).2 = w' at h ⊢
    cases h with
    | idle => exact ⟨b.mapping, b.references, rfl⟩
    | kept => exact ⟨b.mapping, _, rfl⟩
    | _ => exact ⟨_, _, rfl⟩
  | access => exact ⟨b.mapping, b.references, rfl⟩

theorem Use.moves {D : Driver σ ι} {b b' : BufferObject} {w w' : World σ}
    (h : Use D b w b' w') (H : Multiset Holding) :
    Moves D (b.holdings + H, w) (b'.holdings + H, w') := by
  cases h with
  | acquire h => exact BufferObject.acquire_moves H h
  | release => exact BufferObject.release_moves b w H
  | access hm x =>
    obtain ⟨m, he⟩ := b.access_memory D _ w x
    rw [he]
    exact .one (.stored m)

/-- Every change is a sequence of moves by those who hold what is moved. -/
theorem Change.moves {D : Driver σ ι} {e f : Estate σ} (h : Change D e f) :
    Moves D (e.holdings, e.world) (f.holdings, f.world) := by
  cases h with
  | used h =>
    rw [Estate.holdings_cons, Estate.holdings_cons]
    exact h.moves _
  | locked v =>
    rw [Estate.holdings_cons, Estate.holdings_cons]
    exact .refl
  | shared h =>
    rw [Estate.holdings_held_cons, Estate.holdings_cons, Estate.holdings_cons]
    exact BufferObject.share_ok_moves _ h
  | notShared h =>
    rw [Estate.holdings_cons, Estate.holdings_cons]
    exact BufferObject.share_error_moves _ h
  | created p h =>
    rw [Estate.holdings_cons]
    exact BufferObject.create_ok_moves (Estate.reference_mem_holdings ..) h
  | notCreated h => exact BufferObject.create_error_moves (Estate.reference_mem_holdings ..) h
  | imported h =>
    rw [Estate.holdings_cons, ← zero_add (Estate.holdings _)]
    exact BufferObject.borrow_moves (Estate.reference_mem_holdings ..) h
  | installed h =>
    rw [Estate.holdings_cons, Estate.holdings_held_add]
    exact BufferObject.borrow_moves (Estate.reference_mem_holdings ..) h
  | destroyed =>
    rw [Estate.holdings_cons]
    exact BufferObject.destroy_moves _ _ _
  | exported h =>
    rw [Estate.holdings_held_cons]
    exact .one (.exported (Estate.reference_mem_holdings ..) h)
  | notExported h => exact .one (.notExported (Estate.reference_mem_holdings ..) h)
  | converted hd =>
    refine .one (.imported (Estate.reference_mem_holdings ..) ?_)
    exact Multiset.mem_add.mpr (.inl (Multiset.mem_add.mpr
      (.inr (Multiset.mem_map_of_mem _ hd))))
  | closed =>
    rw [Estate.holdings_held_cons]
    exact .one .closed
  | joined =>
    rw [Estate.holdings_users_succ _ _ (_ + 1)]
    exact .one (.joined (Estate.reference_mem_holdings ..))
  | left =>
    rw [Estate.holdings_users_succ]
    exact .one .left
  | warned x => exact .one (.warned x)
  | outside i => exact .one (.outside i)

theorem Changes.moves {D : Driver σ ι} {e f : Estate σ} (h : Changes D e f) :
    Moves D (e.holdings, e.world) (f.holdings, f.world) := by
  induction h with
  | refl => exact .refl
  | tail _ c ih => exact ih.trans c.moves

end DisplayBuffers
