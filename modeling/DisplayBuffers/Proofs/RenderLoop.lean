import DisplayBuffers.Proofs.SlotStates
import DisplayBuffers.Simulation.MemoryDriver

/-! The render loop of one surface, between a client that draws and a display that shows. What a new
frame is drawn over was shown two frames before, so that a display that gives buffers back in the
order of the frames never loses one that it holds. -/
namespace DisplayBuffers
variable {σ ι : Type} {D : Driver σ ι}

/-- How far the client is with a frame. -/
inductive FramePhase where
  | idle
  | composing
  | populated (index : Nat)
  | advanced (index : Nat)
  deriving DecidableEq

structure Loop (σ : Type) where
  surface : Surface
  world : World σ
  phase : FramePhase
  /-- The buffers that were locked for the display, the oldest first. -/
  shown : List BufferId
  /-- The buffers that the display gave back, in the order in which it did. -/
  returned : List BufferId

namespace Loop

def start (x : Surface) (w : World σ) : Loop σ := ⟨x, w, .idle, [], []⟩

/-- One step of the loop. The client starts a frame when there is a free buffer, populates a slot
other than the front, makes it the front and locks it; when a slot cannot be populated it tries
again or abandons the frame. The display gives back each buffer once, in any order. Slot buffers
may be used, and anything else may happen to the world, in between. -/
inductive Step (D : Driver σ ι) : Loop σ → Loop σ → Prop
  | checked {l} (hp : l.phase = .idle) (hf : l.surface.hasFree = true) :
      Step D l { l with phase := .composing }
  | replaced {l i y x w} (hp : l.phase = .composing) (hi : l.surface.front ≠ some i)
      (h : l.surface.replace D i (some y) l.world = (.ok (), x, w)) :
      Step D l { l with surface := x, world := w, phase := .populated i }
  | allocated {l i id x w} (hp : l.phase = .composing) (hi : l.surface.front ≠ some i)
      (h : l.surface.allocate D i l.world = (.ok id, x, w)) :
      Step D l { l with surface := x, world := w, phase := .populated i }
  | notAllocated {l i e x w} (hp : l.phase = .composing) (hi : l.surface.front ≠ some i)
      (h : l.surface.allocate D i l.world = (.error e, x, w)) :
      Step D l { l with surface := x, world := w }
  | abandoned {l} (hp : l.phase = .composing) : Step D l { l with phase := .idle }
  | advanced {l i x} (hp : l.phase = .populated i)
      (h : l.surface.setFront (some i) = (.ok (), x)) :
      Step D l { l with surface := x, phase := .advanced i }
  | locked {l i id x} (hp : l.phase = .advanced i) (h : l.surface.lockFront = (some id, x)) :
      Step D l { l with surface := x, phase := .idle, shown := l.shown ++ [id] }
  | returned {l id} (hs : id ∈ l.shown) (hr : id ∉ l.returned) :
      Step D l { l with surface := l.surface.unlock id, returned := l.returned ++ [id] }
  | used {l i b b' w} (hs : l.surface.slot? i = some b) (h : Use D b l.world b' w) :
      Step D l { l with surface := l.surface.withSlot i (some b'), world := w }
  | elsewhere {l w} (hw : l.world.identities ≤ w.identities) : Step D l { l with world := w }

end Loop

def Surface.id? (x : Surface) (index : Nat) : Option BufferId := (x.slot? index).map (·.id)

theorem Surface.lt_of_id? {x : Surface} {i : Nat} {id : BufferId} (h : x.id? i = some id) :
    i < slotCount := by
  obtain ⟨b, hb, _⟩ := Option.map_eq_some_iff.mp h
  exact lt_of_slot? hb

/-- An object may change in its slot, as long as it is the same. -/
theorem Surface.id?_withSlot {x : Surface} {i : Nat} {b b' : BufferObject}
    (hb : x.slot? i = some b) (hid : b'.id = b.id) : (x.withSlot i (some b')).id? = x.id? := by
  funext j
  unfold id?
  rw [slot?_withSlot]
  split
  · next h =>
    rw [← h.1, hb]
    exact congrArg some hid
  · rfl

theorem Surface.id?_unlock (x : Surface) (id : BufferId) : (x.unlock id).id? = x.id? := by
  funext j
  unfold id?
  rw [slot?_unlock]
  cases x.slot? j with
  | none => rfl
  | some b =>
    simp only [Option.map_some, unlocked]
    split <;> rfl

namespace Loop

/-- No two slots hold one buffer, no buffer is shown twice, and new buffers are none of these. -/
structure Ledger (ids : Nat → Option BufferId) (bound : Nat) (shown : List BufferId) : Prop where
  numbered : ∀ j id, ids j = some id → id.number < bound
  known : ∀ id ∈ shown, id.number < bound
  apart : ∀ i j id, ids i = some id → ids j = some id → i = j
  once : shown.Nodup

namespace Ledger
variable {ids ids' : Nat → Option BufferId} {bound bound' : Nat} {shown : List BufferId} {i : Nat}
  {id : BufferId}

theorem mono (h : Ledger ids bound shown) (hb : bound ≤ bound') : Ledger ids bound' shown where
  numbered j id hj := (h.numbered j id hj).trans_le hb
  known id hm := (h.known id hm).trans_le hb
  apart := h.apart
  once := h.once

theorem sub (h : Ledger ids bound shown) (hs : ∀ j id, ids' j = some id → ids j = some id) :
    Ledger ids' bound shown where
  numbered j id hj := h.numbered j id (hs j id hj)
  known := h.known
  apart i j id hi hj := h.apart i j id (hs i id hi) (hs j id hj)
  once := h.once

theorem not_mem_of_le (h : Ledger ids bound shown) (ha : bound ≤ id.number) : id ∉ shown := by
  intro hm
  have hlt := h.known id hm
  omega

theorem populate (h : Ledger ids bound shown) (ha : bound ≤ id.number) (hb : id.number < bound')
    (hs : ∀ j, ids' j = if i = j then some id else ids j) : Ledger ids' bound' shown where
  numbered j c hj := by
    rw [hs] at hj
    split at hj
    · obtain rfl := Option.some.inj hj
      exact hb
    · have hlt := h.numbered j c hj
      omega
  known c hm := by
    have hlt := h.known c hm
    omega
  apart j k c hj hk := by
    rw [hs] at hj hk
    split at hj <;> split at hk
    · next hij hik => exact hij.symm.trans hik
    · obtain rfl := Option.some.inj hj
      have hlt := h.numbered k _ hk
      omega
    · obtain rfl := Option.some.inj hk
      have hlt := h.numbered j _ hj
      omega
    · exact h.apart j k c hj hk
  once := h.once

theorem lock (h : Ledger ids bound shown) (hi : ids i = some id) (hn : id ∉ shown) :
    Ledger ids bound (shown ++ [id]) where
  numbered := h.numbered
  known c hm := by
    rcases List.mem_append.mp hm with hm | hm
    · exact h.known c hm
    · obtain rfl := List.mem_singleton.mp hm
      exact h.numbered i _ hi
  apart := h.apart
  once := List.nodup_append.mpr ⟨h.once, List.nodup_singleton _, by
    intro a ha c hc hac
    obtain rfl := List.mem_singleton.mp hc
    exact hn (hac ▸ ha)⟩

end Ledger

/-- Between frames the front holds the latest buffer shown, and what the other slot holds was shown
just before it, if at all. -/
def Resting (ids : Nat → Option BufferId) (front : Option Nat) (shown : List BufferId) : Prop :=
  front = none ∧ shown = [] ∨
  ∃ f c l, front = some f ∧ ids f = some c ∧ shown = l ++ [c] ∧
    ∀ j id, j ≠ f → ids j = some id → id ∈ shown → ∃ k, shown = k ++ [id, c]

/-- A slot holds a buffer that was not shown yet, and the other slot the latest that was, if any. -/
def Pending (ids : Nat → Option BufferId) (shown : List BufferId) (i : Nat) : Prop :=
  ∃ id, ids i = some id ∧ id ∉ shown ∧
    ∀ j c, j ≠ i → ids j = some c → c ∈ shown → ∃ l, shown = l ++ [c]

theorem Resting.populate {ids ids' : Nat → Option BufferId} {front : Option Nat}
    {shown : List BufferId} {i : Nat} {id : BufferId} (h : Resting ids front shown)
    (hlt : ∀ j c, ids j = some c → j < slotCount) (hi : i < slotCount) (hf : front ≠ some i)
    (hn : id ∉ shown) (hs : ∀ j, ids' j = if i = j then some id else ids j) :
    Pending ids' shown i := by
  refine ⟨id, by rw [hs, if_pos rfl], hn, ?_⟩
  intro j c hj hc hm
  rw [hs, if_neg (Ne.symm hj)] at hc
  rcases h with ⟨_, rfl⟩ | ⟨f, d, l, rfl, hd, rfl, _⟩
  · cases hm
  · have hfi : f ≠ i := fun he => hf (congrArg some he)
    have hjf : j = f := by
      have h₁ := hlt j c hc
      have h₂ := hlt f d hd
      rw [slotCount] at h₁ h₂ hi
      omega
    subst hjf
    obtain rfl : d = c := Option.some.inj (hd.symm.trans hc)
    exact ⟨l, rfl⟩

theorem Resting.vacate {ids ids' : Nat → Option BufferId} {front : Option Nat}
    {shown : List BufferId} {i : Nat} (h : Resting ids front shown) (hf : front ≠ some i)
    (hs : ∀ j, ids' j = if i = j then none else ids j) : Resting ids' front shown := by
  rcases h with h | ⟨f, c, l, rfl, hc, hl, ho⟩
  · exact .inl h
  · have hif : i ≠ f := fun he => hf (congrArg some he.symm)
    refine .inr ⟨f, c, l, rfl, by rw [hs, if_neg hif, hc], hl, ?_⟩
    intro j id hj hid hm
    rw [hs] at hid
    split at hid
    · cases hid
    · exact ho j id hj hid hm

theorem Pending.lock {ids : Nat → Option BufferId} {bound : Nat} {shown : List BufferId} {i : Nat}
    {id : BufferId} (h : Pending ids shown i) (hl : Ledger ids bound shown)
    (hi : ids i = some id) : Resting ids (some i) (shown ++ [id]) := by
  obtain ⟨d, hd, hn, ho⟩ := h
  obtain rfl : d = id := Option.some.inj (hd.symm.trans hi)
  refine .inr ⟨i, d, shown, rfl, hi, rfl, ?_⟩
  intro j c hj hc hm
  rcases List.mem_append.mp hm with hm | hm
  · obtain ⟨l, rfl⟩ := ho j c hj hc hm
    exact ⟨l, by simp⟩
  · obtain rfl := List.mem_singleton.mp hm
    exact absurd (hl.apart j i c hc hi) hj

/-- While a frame is composed some slot stays free. -/
def Stage (ids : Nat → Option BufferId) (front : Option Nat) (shown returned : List BufferId) :
    FramePhase → Prop
  | .idle => Resting ids front shown
  | .composing => Resting ids front shown ∧
    ∃ j, j < slotCount ∧ ∀ id, ids j = some id → id ∈ shown → id ∈ returned
  | .populated i => Pending ids shown i
  | .advanced i => front = some i ∧ Pending ids shown i

theorem Stage.give {ids : Nat → Option BufferId} {front : Option Nat}
    {shown returned : List BufferId} {p : FramePhase} (h : Stage ids front shown returned p)
    (id : BufferId) : Stage ids front shown (returned ++ [id]) p := by
  cases p with
  | composing =>
    obtain ⟨hrest, j, hj, hfree⟩ := h
    exact ⟨hrest, j, hj, fun c hc hm => List.mem_append_left _ (hfree c hc hm)⟩
  | idle => exact h
  | populated i => exact h
  | advanced i => exact h

/-- The display holds on to what was shown and not given back, and to nothing else. -/
structure Inv (l : Loop σ) : Prop where
  ledger : Ledger l.surface.id? l.world.identities l.shown
  given : l.returned ⊆ l.shown
  locks : ∀ j b, l.surface.slot? j = some b →
    (b.locked = true ↔ b.id ∈ l.shown ∧ b.id ∉ l.returned)
  stage : Stage l.surface.id? l.surface.front l.shown l.returned l.phase

theorem inv_start {x : Surface} (hx : ∀ j, x.slot? j = none) (hf : x.front = none)
    (w : World σ) : (start x w).Inv where
  ledger := by
    refine ⟨?_, ?_, ?_, List.nodup_nil⟩ <;> simp [start, Surface.id?, hx]
  given := List.nil_subset _
  locks j b h := by simp [start, hx] at h
  stage := .inl ⟨hf, rfl⟩

namespace Inv
variable {l : Loop σ}

private theorem free (h : l.Inv) (hf : l.surface.hasFree = true) :
    ∃ j, j < slotCount ∧
      ∀ id, l.surface.id? j = some id → id ∈ l.shown → id ∈ l.returned := by
  obtain ⟨j, hj, hb⟩ := l.surface.hasFree_iff.mp hf
  refine ⟨j, hj, ?_⟩
  intro id hid hm
  obtain ⟨b, hs, rfl⟩ := Option.map_eq_some_iff.mp hid
  by_contra hr
  have hlocked := (h.locks j b hs).mpr ⟨hm, hr⟩
  rw [hb b hs] at hlocked
  cases hlocked

/-- A new frame is begun in a slot that held no frame, or the one before the latest. -/
theorem populate (h : l.Inv) (hp : l.phase = .composing) {i : Nat}
    (hi : l.surface.front ≠ some i) {b : BufferObject} {x : Surface} {w : World σ}
    (hx : Surface.Populated l.surface l.world i b x w) :
    Inv { l with surface := x, world := w, phase := .populated i } := by
  obtain ⟨hrange, hfront, hslots, hfresh⟩ := hx
  have hids (j : Nat) : x.id? j = if i = j then some b.id else l.surface.id? j := by
    rw [Surface.id?, hslots]
    split <;> rfl
  have hn : b.id ∉ l.shown := h.ledger.not_mem_of_le hfresh.above
  have hstage := h.stage
  rw [hp] at hstage
  refine ⟨h.ledger.populate hfresh.above hfresh.below hids, h.given, ?_, ?_⟩
  · intro j c hc
    simp only [hslots] at hc
    split at hc
    · obtain rfl := Option.some.inj hc
      simp [hfresh.unlocked, hn]
    · exact h.locks j c hc
  · exact hstage.1.populate (fun _ _ => Surface.lt_of_id?) hrange hi hn hids

/-- A slot that was only emptied leaves a free slot free. -/
private theorem vacate (h : l.Inv) (hp : l.phase = .composing) {i : Nat}
    (hi : l.surface.front ≠ some i) {x : Surface} {w : World σ}
    (hfront : x.front = l.surface.front)
    (hslots : ∀ j, x.slot? j = if i = j then none else l.surface.slot? j)
    (hle : l.world.identities ≤ w.identities) : Inv { l with surface := x, world := w } := by
  have hids (j : Nat) : x.id? j = if i = j then none else l.surface.id? j := by
    rw [Surface.id?, hslots]
    split <;> rfl
  have hsub (j : Nat) (id : BufferId) (hj : x.id? j = some id) : l.surface.id? j = some id := by
    rw [hids] at hj
    split at hj
    · cases hj
    · exact hj
  have hstage := h.stage
  rw [hp] at hstage
  obtain ⟨hrest, j, hj, hfree⟩ := hstage
  refine ⟨(h.ledger.sub hsub).mono hle, h.given, ?_, ?_⟩
  · intro j b hb
    simp only [hslots] at hb
    split at hb
    · cases hb
    · exact h.locks j b hb
  · change Stage _ x.front _ _ l.phase
    rw [hp, hfront]
    exact ⟨hrest.vacate hi hids, j, hj, fun id hid => hfree id (hsub j id hid)⟩

/-- The frame is shown: the front is locked, and is the latest from now on. -/
private theorem lock (h : l.Inv) {i : Nat} (hp : l.phase = .advanced i) {b : BufferObject}
    (hb : l.surface.slot? i = some b) :
    Inv { l with
      surface := l.surface.withSlot i (some { b with locked := true })
      phase := .idle
      shown := l.shown ++ [b.id] } := by
  have hstage := h.stage
  rw [hp] at hstage
  obtain ⟨hfront, hpending⟩ := hstage
  have hib : l.surface.id? i = some b.id := congrArg (Option.map _) hb
  have hn : b.id ∉ l.shown := by
    obtain ⟨c, hc, hn, _⟩ := hpending
    exact Option.some.inj (hib.symm.trans hc) ▸ hn
  have hids : (l.surface.withSlot i (some { b with locked := true })).id? = l.surface.id? :=
    Surface.id?_withSlot hb rfl
  refine ⟨?_, fun c hc => List.mem_append_left _ (h.given hc), ?_, ?_⟩
  · rw [hids]
    exact h.ledger.lock hib hn
  · intro j c hc
    simp only [Surface.slot?_withSlot] at hc
    split at hc
    · obtain rfl := Option.some.inj hc
      have hr : b.id ∉ l.returned := fun hr => hn (h.given hr)
      simp [hr]
    · next hj =>
      have hcb : c.id ≠ b.id := by
        intro he
        have hji := h.ledger.apart j i c.id (congrArg (Option.map _) hc) (he ▸ hib)
        exact hj ⟨hji.symm, Surface.lt_of_slot? hb⟩
      simpa [hcb] using h.locks j c hc
  · rw [hids]
    change Resting _ l.surface.front _
    rw [hfront]
    exact hpending.lock h.ledger hib

private theorem give (h : l.Inv) {id : BufferId} (hm : id ∈ l.shown) :
    Inv { l with surface := l.surface.unlock id, returned := l.returned ++ [id] } := by
  have hids := l.surface.id?_unlock id
  refine ⟨?_, ?_, ?_, ?_⟩
  · rw [hids]
    exact h.ledger
  · intro c hc
    rcases List.mem_append.mp hc with hc | hc
    · exact h.given hc
    · exact List.mem_singleton.mp hc ▸ hm
  · intro j c hc
    simp only [Surface.slot?_unlock] at hc
    obtain ⟨b, hb, rfl⟩ := Option.map_eq_some_iff.mp hc
    by_cases he : b.id = id
    · simp [Surface.unlocked, he]
    · simpa [Surface.unlocked, he] using h.locks j b hb
  · rw [hids]
    exact h.stage.give id

private theorem use (h : l.Inv) {i : Nat} {b b' : BufferObject} {w : World σ}
    (hb : l.surface.slot? i = some b) (hu : Use D b l.world b' w) :
    Inv { l with surface := l.surface.withSlot i (some b'), world := w } := by
  have hle := (hu.moves 0).advances.identities
  obtain ⟨m, r, rfl⟩ := hu.same
  have hids : (l.surface.withSlot i (some { b with mapping := m, references := r })).id? =
      l.surface.id? := Surface.id?_withSlot hb rfl
  refine ⟨?_, h.given, ?_, ?_⟩
  · rw [hids]
    exact h.ledger.mono hle
  · intro j c hc
    simp only [Surface.slot?_withSlot] at hc
    split at hc
    · obtain rfl := Option.some.inj hc
      exact h.locks i b hb
    · exact h.locks j c hc
  · rw [hids]
    exact h.stage

theorem step {l' : Loop σ} (hs : Step D l l') (h : l.Inv) : l'.Inv := by
  have hstage := h.stage
  cases hs with
  | checked hp hf =>
    rw [hp] at hstage
    exact ⟨h.ledger, h.given, h.locks, hstage, h.free hf⟩
  | replaced hp hi hx =>
    obtain ⟨b, hb⟩ := Surface.replace_populated hx
    exact h.populate hp hi hb
  | allocated hp hi hx =>
    obtain ⟨b, _, hb⟩ := Surface.allocate_populated hx
    exact h.populate hp hi hb
  | notAllocated hp hi hx =>
    obtain ⟨hfront, hslots, hle⟩ := Surface.allocate_error hx
    exact h.vacate hp hi hfront hslots hle
  | abandoned hp =>
    rw [hp] at hstage
    exact ⟨h.ledger, h.given, h.locks, hstage.1⟩
  | advanced hp hx =>
    obtain ⟨_, rfl⟩ := Surface.setFront_some hx
    rw [hp] at hstage
    exact ⟨h.ledger, h.given, h.locks, rfl, hstage⟩
  | locked hp hx =>
    obtain ⟨f, b, hf, hb, rfl, rfl⟩ := Surface.lockFront_some hx
    rw [hp] at hstage
    obtain rfl := Option.some.inj (hf.symm.trans hstage.1)
    exact h.lock hp hb
  | returned hm hr => exact h.give hm
  | used hb hu => exact h.use hb hu
  | elsewhere hw => exact ⟨h.ledger.mono hw, h.given, h.locks, hstage⟩

end Inv

theorem inv_of_reached {x : Surface} {width height : UInt32} {code : FormatCode} {usage : Usage}
    (hx : Surface.create width height code usage = .ok x) {w : World σ} {l : Loop σ}
    (h : Relation.ReflTransGen (Step D) (start x w) l) : l.Inv := by
  induction h with
  | refl => exact inv_start (Surface.slot?_create hx) (Surface.create_empty hx).2 w
  | tail _ hs ih => exact Inv.step hs ih

/-- Whoever gives back in order gives back the one before the latest first. -/
private theorem mem_of_in_order {k returned : List BufferId} {b c : BufferId}
    (hn : (k ++ [b, c]).Nodup) (hc : c ∈ returned) (hp : returned <+: k ++ [b, c]) :
    b ∈ returned := by
  obtain ⟨rest, he⟩ := hp
  rcases List.eq_nil_or_concat rest with rfl | ⟨init, last, rfl⟩
  · rw [List.append_nil] at he
    rw [he]
    simp
  · have hlast : last = c := by
      have := congrArg List.getLast? he
      simpa using this
    rw [← he] at hn
    have hdisjoint := (List.nodup_append.mp hn).2.2 c hc c (by simp [hlast])
    exact absurd rfl hdisjoint

section
open Simulation (Machine)

/-- One frame, of a picture that the client brings. -/
private theorem frame {l : Loop σ} {i : Nat} {y : SlotBuffer} {x x' x'' : Surface} {w : World σ}
    {id : BufferId} (hp : l.phase = .idle) (hf : l.surface.hasFree = true)
    (hi : l.surface.front ≠ some i)
    (hx : l.surface.replace D i (some y) l.world = (.ok (), x, w))
    (ha : x.setFront (some i) = (.ok (), x')) (hl : x'.lockFront = (some id, x'')) :
    Relation.ReflTransGen (Step D) l
      { l with surface := x'', world := w, phase := .idle, shown := l.shown ++ [id] } :=
  (((Relation.ReflTransGen.single (.checked hp hf)).tail (.replaced rfl hi hx)).tail
    (.advanced rfl ha)).tail (.locked rfl hl)

def canvas (a b : Option BufferObject) (front : Option Nat) : Surface :=
  ⟨64, 64, .xrgb8888, .scanout, ⟨#[a, b], rfl⟩, front⟩

def picture (n : Nat) (locked : Bool) : BufferObject where
  id := ⟨n⟩
  width := 64
  height := 64
  format := PixelFormat.xrgb8888.code
  planes := [⟨.null, 256⟩]
  byteSize := rowBytes 256 64
  backing := .borrowed none (some (.client 0))
  mapping := none
  references := 0
  locked := locked

/-- A device and a surface hold the driver, and so many pictures. -/
def machineWorld (n : Nat) : World Machine :=
  { World.start (.fresh 1 "") with identities := n, holders := n + 2 }

/-- After two frames the display gives back the second, and the client begins with a third. -/
def thirdFrame : Loop Machine :=
  ⟨canvas (some (picture 0 true)) (some (picture 1 false)) (some 1), machineWorld 2, .composing,
    [⟨0⟩, ⟨1⟩], [⟨1⟩]⟩

private theorem hasFree_canvas {a b : Option BufferObject} {front : Option Nat}
    (h : ∀ x, b = some x → x.locked = false) : (canvas a b front).hasFree = true :=
  (Surface.hasFree_iff _).mpr ⟨1, by decide, h⟩

private theorem unlock_canvas :
    (canvas (some (picture 0 true)) (some (picture 1 true)) (some 1)).unlock ⟨1⟩ =
      canvas (some (picture 0 true)) (some (picture 1 false)) (some 1) := by
  simp [Surface.unlock, canvas, picture]

private theorem canvas_created :
    Surface.create 64 64 PixelFormat.xrgb8888.code .scanout = .ok (canvas none none none) := rfl

private theorem thirdFrame_reached : Relation.ReflTransGen (Step Machine.driver)
    (start (canvas none none none) (machineWorld 0)) thirdFrame := by
  have h₁ : Relation.ReflTransGen (Step Machine.driver)
      (start (canvas none none none) (machineWorld 0))
      ⟨canvas (some (picture 0 true)) none (some 0), machineWorld 1, .idle, [⟨0⟩], []⟩ :=
    frame (i := 0) (y := ⟨256, none, some (.client 0)⟩) rfl (hasFree_canvas nofun)
      (by simp [start, canvas]) rfl rfl rfl
  have h₂ : Relation.ReflTransGen (Step Machine.driver)
      (start (canvas none none none) (machineWorld 0))
      ⟨canvas (some (picture 0 true)) (some (picture 1 true)) (some 1), machineWorld 2, .idle,
        [⟨0⟩, ⟨1⟩], []⟩ :=
    h₁.trans (frame (i := 1) (y := ⟨256, none, some (.client 0)⟩) rfl (hasFree_canvas nofun)
      (by simp [canvas]) rfl rfl rfl)
  have h₃ := h₂.tail (.returned (List.mem_cons_of_mem _ List.mem_cons_self) List.not_mem_nil)
  rw [unlock_canvas] at h₃
  refine h₃.tail (.checked rfl (hasFree_canvas ?_))
  intro x hx
  obtain rfl := Option.some.inj hx
  rfl

/-- In a loop that gives buffers back in any order, what a client is about to draw over is locked
only if it was shown just before the latest buffer and the display holds it still, though it has
given back the latest. With buffers given back in the order in which they were shown, no buffer is
drawn over that is locked. -/
theorem overwritten_when_locked {x : Surface} {width height : UInt32} {code : FormatCode}
    {usage : Usage} (hx : Surface.create width height code usage = .ok x) {w : World σ}
    {l : Loop σ} (h : Relation.ReflTransGen (Step D) (start x w) l) (hp : l.phase = .composing)
    {i : Nat} (hi : l.surface.front ≠ some i) {b : BufferObject}
    (hb : l.surface.slot? i = some b) :
    (b.locked = true →
      ∃ k c, l.shown = k ++ [b.id, c] ∧ b.id ∉ l.returned ∧ c ∈ l.returned) ∧
    (l.returned <+: l.shown → b.locked = false) := by
  have hinv : l.Inv := inv_of_reached hx h
  have hlate : b.locked = true →
      ∃ k c, l.shown = k ++ [b.id, c] ∧ b.id ∉ l.returned ∧ c ∈ l.returned := by
    intro hlocked
    obtain ⟨hs, hr⟩ := (hinv.locks i b hb).mp hlocked
    have hib : l.surface.id? i = some b.id := congrArg (Option.map _) hb
    have hstage := hinv.stage
    rw [hp] at hstage
    obtain ⟨hrest, j, hj, hfree⟩ := hstage
    have hji : j ≠ i := fun he => hr (hfree b.id (he ▸ hib) hs)
    rcases hrest with ⟨_, hnone⟩ | ⟨f, c, k, hf, hc, hk, ho⟩
    · rw [hnone] at hs
      cases hs
    · have hfi : i ≠ f := fun he => hi (he ▸ hf)
      have hjf : j = f := by
        have h₁ := Surface.lt_of_id? hib
        have h₂ := Surface.lt_of_id? hc
        rw [slotCount] at h₁ h₂ hj
        omega
      have hcm : c ∈ l.shown := by simp [hk]
      obtain ⟨k', hk'⟩ := ho i b.id hfi hib hs
      exact ⟨k', c, hk', hr, hfree c (hjf ▸ hc) hcm⟩
  refine ⟨hlate, ?_⟩
  intro horder
  by_contra hlocked
  obtain ⟨k, c, hk, hr, hc⟩ := hlate (by simpa using hlocked)
  have hn := hinv.ledger.once
  rw [hk] at hn horder
  exact hr (mem_of_in_order hn hc horder)

/-- The third frame is drawn over the first, which the display holds. -/
theorem overwritten_in_third_frame : thirdFrame.phase = .composing ∧
    thirdFrame.surface.front ≠ some 0 ∧ thirdFrame.surface.slot? 0 = some (picture 0 true) ∧
    ∃ k c, thirdFrame.shown = k ++ [⟨0⟩, c] ∧ ⟨0⟩ ∉ thirdFrame.returned ∧
      c ∈ thirdFrame.returned := by
  have hi : thirdFrame.surface.front ≠ some 0 := by simp [thirdFrame, canvas]
  exact ⟨rfl, hi, rfl,
    (overwritten_when_locked canvas_created thirdFrame_reached rfl hi rfl).1 rfl⟩

/-- That there is a free buffer does not keep the display's buffers from being drawn over. -/
theorem locked_overwritten_despite_check :
    ¬ ∀ (width height : UInt32) (code : FormatCode) (usage : Usage) (x : Surface)
      (w : World Machine) (l : Loop Machine),
      Surface.create width height code usage = .ok x →
      Relation.ReflTransGen (Step Machine.driver) (start x w) l → l.phase = .composing →
      ∀ i b, l.surface.front ≠ some i → l.surface.slot? i = some b → b.locked = false := by
  intro h
  have hi : thirdFrame.surface.front ≠ some 0 := by simp [thirdFrame, canvas]
  have hlocked := h _ _ _ _ _ _ _ canvas_created thirdFrame_reached rfl 0 _ hi rfl
  cases hlocked

end

end Loop
end DisplayBuffers
