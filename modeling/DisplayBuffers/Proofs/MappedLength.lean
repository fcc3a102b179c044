import DisplayBuffers.Dumb.Driver
import DisplayBuffers.Proofs.Origins

/-! How much of a dumb buffer is mapped, and how much of it the cpu may access. The one is counted
in the rows that were asked for, the other in the rows that the kernel reports. -/
namespace DisplayBuffers
variable {σ ι κ : Type}

theorem rowBytes_le_iff (stride a b : UInt32) :
    rowBytes stride a ≤ rowBytes stride b ↔ stride = 0 ∨ a ≤ b := by
  have hzero : stride.toNat = 0 ↔ stride = 0 := UInt32.toNat_inj (b := 0)
  rw [rowBytes, rowBytes, UInt32.le_iff_toNat_le, ← hzero]
  rcases Nat.eq_zero_or_pos stride.toNat with h | h
  · simp [h]
  · rw [Nat.mul_le_mul_left_iff h]
    exact (or_iff_right (by omega)).symm

namespace BufferObject

/-- How many of the first bytes an access needs. -/
def Access.reach : Access → Nat
  | .write data => data.length
  | .poke offset _ => offset + 1
  | .peek offset count => offset + count
  | .inspect => 0

def Seen.accepted : Seen → Bool
  | .written (.ok _) => true
  | .written (.error _) => false
  | .poked inRange => inRange
  | .peeked bytes => bytes.isSome
  | .inspected _ _ _ => true

/-- On a mapped object an access is let through if the object's bytes are enough for it. -/
theorem access_accepted {b : BufferObject} {a : Address} (hm : b.mapping = some a) (w : World σ)
    (x : Access) : (b.access D a w x).1.accepted = true ↔ x.reach ≤ b.byteSize := by
  cases x with
  | write data =>
    by_cases h : b.byteSize < data.length
    · simp [access, write, hm, h, Seen.accepted, Access.reach]
    · have hle : data.length ≤ b.byteSize := Nat.le_of_not_lt h
      simp [access, write, hm, h, hle, Seen.accepted, Access.reach]
  | poke offset value =>
    by_cases h : offset < b.byteSize
    · have hle : offset + 1 ≤ b.byteSize := h
      simp [access, h, hle, Seen.accepted, Access.reach]
    · have hlt : ¬ offset + 1 ≤ b.byteSize := h
      simp [access, h, hlt, Seen.accepted, Access.reach]
  | peek offset count =>
    by_cases h : offset + count ≤ b.byteSize <;> simp [access, h, Seen.accepted, Access.reach]
  | inspect => simp [access, Seen.accepted, Access.reach]

theorem accessAll_within {b : BufferObject} {a : Address} (hm : b.mapping = some a)
    (accesses : List Access) (w : World σ) :
    (b.accessAll D a accesses w).1.map (·.accepted) =
      accesses.map fun x => decide (x.reach ≤ b.byteSize) := by
  induction accesses generalizing w with
  | nil => rfl
  | cons x xs ih =>
    have hx : (b.access D a w x).1.accepted = decide (x.reach ≤ b.byteSize) :=
      Bool.eq_iff_iff.mpr (by simpa using access_accepted hm w x)
    rw [accessAll, List.map_cons, List.map_cons, hx, ih]

/-- All that is let through stays within a range just when the range covers the object's bytes. -/
theorem accesses_within_iff {b : BufferObject} {a : Address} (hm : b.mapping = some a)
    (w : World σ) (n : Nat) :
    (∀ x, (b.access D a w x).1.accepted = true → x.reach ≤ n) ↔ b.byteSize ≤ n := by
  constructor
  · intro h
    have hall := h (.write (.replicate b.byteSize 0))
    rw [access_accepted hm] at hall
    simpa [Access.reach] using hall
  · intro h x hx
    exact ((access_accepted hm w x).mp hx).trans h

end BufferObject

/-- The address that an owner knows is the answer to a call. -/
def KnownMapped (x : Multiset Holding × World σ) : Prop :=
  ∀ s a, .storage s (some a) ∈ x.1 → .map s (.ok a) ∈ x.2.events

theorem Move.knownMapped {D : Driver σ ι} {x y : Multiset Holding × World σ} (h : Move D x y)
    (hx : KnownMapped x) : KnownMapped y := by
  have hp := h.advances.events
  intro s a hs
  cases h with
  | mapped h =>
    rcases Multiset.mem_cons.mp hs with he | hs
    · cases he
      rw [World.map_eq h]
      exact List.mem_append_right _ List.mem_cons_self
    · exact hp.subset (hx s a (Multiset.mem_cons_of_mem hs))
  | unmapped =>
    rcases Multiset.mem_cons.mp hs with he | hs
    · cases he
    · exact hp.subset (hx s a (Multiset.mem_cons_of_mem hs))
  | closed | left => exact hp.subset (hx s a (Multiset.mem_cons_of_mem hs))
  | allocated | released =>
    rcases Multiset.mem_cons.mp hs with he | hs
    · cases he
    · exact hp.subset (hx s a (Multiset.mem_cons_of_mem hs))
  | _ => exact hp.subset (hx s a (by simpa using hs))

theorem Session.knownMapped (D : Driver σ ι) (d : σ) (ops : List (Op ι)) :
    KnownMapped (((start d).run D ops).2.estate.holdings, ((start d).run D ops).2.world) := by
  apply run_keeps (I := fun e => KnownMapped (e.holdings, e.world))
  · intro e f h
    exact h.moves.keeps (fun _ _ => Move.knownMapped)
  · intro L H n w h s a hs
    rcases Multiset.mem_cons.mp (Estate.holdings_held_cons L _ H n _ ▸ hs) with he | hs
    · cases he
    · exact h s a hs
  · intro s a hs
    have hnone : .storage s (some a) ∉ (Session.start d).estate.holdings :=
      show Holding.storage s (some a) ∉ ({.reference} : Multiset Holding) by simp
    exact absurd hs hnone

namespace Dumb
variable {K : Kernel κ ι}

theorem Connection.calls_ask {α : Type} (c : Connection κ) (f : κ → Except Errno α × κ)
    (call : Except Errno α → Call) :
    (c.ask f call).2.calls = c.calls ++ [call (f c.kernel).1] := rfl

private theorem Connection.calls_ask_grow {α : Type} (c : Connection κ)
    (f : κ → Except Errno α × κ) (call : Except Errno α → Call) :
    c.calls <+: (c.ask f call).2.calls := by
  rw [calls_ask]
  exact List.prefix_append _ _

theorem allocate_calls_grow (K : Kernel κ ι) (kind : BufferKind) (width height : UInt32)
    (c : Connection κ) : c.calls <+: (allocate K kind width height c).2.calls := by
  have h := c.calls_ask_grow (K.createDumb (kind.dimensions width height).1
    (kind.dimensions width height).2 bitsPerPixel 0) (.createDumb (kind.dimensions width height).1
    (kind.dimensions width height).2 bitsPerPixel 0)
  simp only [allocate]
  split
  · next hc =>
    rw [hc] at h
    exact h
  · next hc =>
    rw [hc] at h
    exact h

/-- The length is that of the rows asked for, whatever height the kernel reports. -/
theorem allocate_length {kind : BufferKind} {width height : UInt32} {c : Connection κ}
    {x : Allocation} (h : (allocate K kind width height c).1 = .ok x) :
    x.length = rowBytes x.stride (kind.dimensions width height).2 := by
  simp only [allocate] at h
  split at h
  · cases h
  · obtain rfl := Except.ok.inj h
    rfl

theorem map_calls_grow (K : Kernel κ ι) (s : Storage) (c : Connection κ) :
    c.calls <+: (map K s c).2.calls := by
  have h := c.calls_ask_grow (K.mapDumb s.handle) (.mapDumb s.handle)
  simp only [map]
  split
  · next hc =>
    rw [hc] at h
    exact h
  · next offset c₁ hc =>
    rw [hc] at h
    exact h.trans (c₁.calls_ask_grow _ _)

theorem placed_eq_ok {r : Except Errno (Option Address)} {a : Address} :
    placed (r.mapError .os) = .ok a ↔ r = .ok (some a) := by
  rcases r with e | _ | b <;> simp [placed, Except.mapError]

/-- Storage that is mapped was mapped in its full length. -/
theorem map_calls {s : Storage} {a : Address} {c : Connection κ} (h : (map K s c).1 = .ok a) :
    ∃ offset, .mmap s.length protection mappingFlags offset (.ok (some a)) ∈
      (map K s c).2.calls := by
  simp only [map] at h ⊢
  split at h
  · cases h
  · next offset c₁ hc =>
    refine ⟨offset, ?_⟩
    rw [Connection.calls_ask]
    rw [show (K.mmap s.length protection mappingFlags offset c₁.kernel).1 = .ok (some a) from
      placed_eq_ok.mp h]
    exact List.mem_append_right _ List.mem_cons_self

theorem exportHandle_calls_grow (K : Kernel κ ι) (handle : Handle) (flags : ExportFlags)
    (c : Connection κ) : c.calls <+: (exportHandle K handle flags c).2.calls := by
  rw [exportHandle]
  split
  · exact List.prefix_rfl
  · exact c.calls_ask_grow _ _

/-- What the calls to the kernel say of an event. -/
def Recorded (calls : List Call) : Event → Prop
  | .allocate kind width height _ (.ok s) =>
    s.length = rowBytes s.stride (kind.dimensions width height).2
  | .map s (.ok a) => ∃ offset,
    .mmap s.length protection mappingFlags offset (.ok (some a)) ∈ calls
  | .unmap s a _ => ∃ r, .munmap a s.length r ∈ calls
  | _ => True

theorem Recorded.mono {calls calls' : List Call} {e : Event} (h : Recorded calls e)
    (hc : calls <+: calls') : Recorded calls' e := by
  unfold Recorded at h ⊢
  split at h
  · exact h
  · obtain ⟨offset, hm⟩ := h
    exact ⟨offset, hc.subset hm⟩
  · obtain ⟨r, hm⟩ := h
    exact ⟨r, hc.subset hm⟩
  · trivial

def AllRecorded (w : World (Connection κ)) : Prop := ∀ e ∈ w.events, Recorded w.driver.calls e

private theorem AllRecorded.grow {w w' : World (Connection κ)} (h : AllRecorded w)
    (es : List Event) (he : w'.events = w.events ++ es)
    (hc : w.driver.calls <+: w'.driver.calls) (hes : ∀ e ∈ es, Recorded w'.driver.calls e) :
    AllRecorded w' := by
  intro e hm
  rw [he] at hm
  rcases List.mem_append.mp hm with hm | hm
  · exact (h e hm).mono hc
  · exact hes e hm

private theorem recorded_warnings (calls : List Call) (warnings : List Warning) :
    ∀ e ∈ warnings.map Event.warn, Recorded calls e := by
  intro e he
  obtain ⟨x, _, rfl⟩ := List.mem_map.mp he
  trivial

private theorem recorded_one {calls : List Call} {e : Event} (h : Recorded calls e) :
    ∀ x ∈ [e], Recorded calls x := by
  intro x hx
  obtain rfl := List.mem_singleton.mp hx
  exact h

theorem move_recorded {x y : Multiset Holding × World (Connection κ)} (h : Move (driver K) x y)
    (hx : AllRecorded x.2) : AllRecorded y.2 := by
  cases h with
  | @allocated H w w' kind width height format s h =>
    obtain ⟨_, ha, rfl⟩ := World.allocate_ok h
    exact hx.grow _ rfl (allocate_calls_grow K kind width height w.driver)
      (recorded_one (allocate_length ha))
  | @notAllocated H w w' kind width height format e hr h =>
    rw [World.allocate_error h]
    exact hx.grow _ rfl (allocate_calls_grow K kind width height w.driver) (recorded_one trivial)
  | @mapped H w w' s a h =>
    have ha : (map K s w.driver).1 = .ok a := (Prod.mk.inj h).1
    rw [World.map_eq h]
    exact hx.grow _ rfl (map_calls_grow K s w.driver) (recorded_one (map_calls ha))
  | @notMapped H w w' s e h =>
    rw [World.map_eq h]
    exact hx.grow _ rfl (map_calls_grow K s w.driver) (recorded_one trivial)
  | @unmapped H w s a =>
    obtain ⟨r, warnings, hw⟩ := w.unmap_eq (driver K) s a
    rw [hw]
    refine hx.grow _ rfl (w.driver.calls_ask_grow _ _) ?_
    intro e he
    rcases List.mem_cons.mp he with rfl | he
    · exact ⟨_, List.mem_append_right _ List.mem_cons_self⟩
    · exact recorded_warnings _ warnings e he
  | @released H w s =>
    obtain ⟨r, warnings, hw⟩ := w.release_eq (driver K) s
    rw [hw]
    refine hx.grow _ rfl (w.driver.calls_ask_grow _ _) ?_
    intro e he
    rcases List.mem_cons.mp he with rfl | he
    · trivial
    · exact recorded_warnings _ warnings e he
  | @exported H w w' handle flags d hr h =>
    rw [World.exportHandle_ok h]
    exact hx.grow _ rfl (exportHandle_calls_grow K handle flags w.driver) (recorded_one trivial)
  | @notExported H w w' handle flags e hr h =>
    rw [World.exportHandle_error h]
    exact hx.grow _ rfl (exportHandle_calls_grow K handle flags w.driver) (recorded_one trivial)
  | @duplicated H w w' d d' hr hd h =>
    rw [(World.duplicate_ok h).2]
    exact hx.grow _ rfl (w.driver.calls_ask_grow _ _) (recorded_one trivial)
  | @notDuplicated H w w' d e hr hd h =>
    rw [World.duplicate_error h]
    exact hx.grow _ rfl (w.driver.calls_ask_grow _ _) (recorded_one trivial)
  | closed => exact hx.grow _ rfl List.prefix_rfl (recorded_one trivial)
  | @imported H w d hr hd =>
    exact hx.grow _ rfl (w.driver.calls_ask_grow _ _) (recorded_one trivial)
  | warned x => exact hx.grow _ rfl List.prefix_rfl (recorded_one trivial)
  | @left H w =>
    refine hx.grow [] (List.append_nil _).symm ?_ (by simp)
    rcases w.letGo_driver (driver K) with h | ⟨-, h⟩
    · rw [h]
    · rw [h]
      exact List.prefix_append _ _
  | named => exact hx
  | joined => exact hx
  | stored m => exact hx
  | outside i => exact hx

theorem session_recorded (K : Kernel κ ι) (c : Connection κ) (ops : List (Session.Op ι)) :
    AllRecorded ((Session.start c).run (driver K) ops).2.world := by
  apply Session.run_keeps (I := fun e => AllRecorded e.world)
  · intro e f h
    exact h.moves.keeps (I := fun x => AllRecorded x.2) (fun _ _ => move_recorded)
  · intro L H n w h
    exact h
  · intro e he
    cases he

/-- In every session with dumb buffers, and whatever the kernel answers: a mapping is made and
undone in the length of its storage, the rows of which were asked for. The bytes of an object that
owns the storage, and with them all that accesses to it can reach, lie within that length unless
the kernel reports more rows than were asked for. -/
theorem mapping_covers_iff (K : Kernel κ ι) (c : Connection κ) (ops : List (Session.Op ι)) :
    let s := ((Session.start c).run (driver K) ops).2
    (∀ st a, .map st (.ok a) ∈ s.world.events → ∃ offset,
      .mmap st.length protection mappingFlags offset (.ok (some a)) ∈ s.world.driver.calls) ∧
    (∀ st a r, .unmap st a r ∈ s.world.events → ∃ r,
      .munmap a st.length r ∈ s.world.driver.calls) ∧
    ∀ x ∈ s.live, ∀ st d, x.2.backing = .owned st d → ∃ usage format,
      .allocate (.ofUsage usage) x.2.width x.2.height format (.ok st) ∈ s.world.events ∧
      let covered := st.stride = 0 ∨
        st.height ≤ ((BufferKind.ofUsage usage).dimensions x.2.width x.2.height).2
      (x.2.byteSize ≤ st.length ↔ covered) ∧
      ∀ a, x.2.mapping = some a →
        .map st (.ok a) ∈ s.world.events ∧
        ((∀ y, (x.2.access D a s.world y).1.accepted = true → y.reach ≤ st.length) ↔ covered) := by
  intro s
  have hr : AllRecorded s.world := session_recorded K c ops
  refine ⟨fun st a h => hr _ h, fun st a r h => hr _ h, ?_⟩
  intro x hx st d hb
  have ho : Origin s.world.events x := Session.origin_of_live _ c ops x hx
  cases ho with
  | imported h => rw [h] at hb; cases hb
  | installed h => rw [h] at hb; cases hb
  | @created p b usage format st' d' h hp hs he =>
    obtain ⟨rfl, rfl⟩ := Backing.owned.inj (h.symm.trans hb)
    have hm : .allocate (.ofUsage usage) b.width b.height format (.ok st') ∈ s.world.events :=
      he.subset List.mem_cons_self
    have hl : st'.length =
        rowBytes st'.stride ((BufferKind.ofUsage usage).dimensions b.width b.height).2 := hr _ hm
    have hc : b.byteSize ≤ st'.length ↔ st'.stride = 0 ∨
        st'.height ≤ ((BufferKind.ofUsage usage).dimensions b.width b.height).2 := by
      rw [hs, hl, rowBytes_le_iff]
    refine ⟨usage, format, hm, hc, ?_⟩
    intro a ha
    refine ⟨?_, (BufferObject.accesses_within_iff ha s.world st'.length).trans hc⟩
    have hk : KnownMapped (s.estate.holdings, s.world) := Session.knownMapped _ c ops
    apply hk
    have hh : .storage st' (some a) ∈ b.holdings := by
      rw [BufferObject.holdings_owned h, ha]
      exact Multiset.mem_cons_of_mem (Multiset.mem_cons_self _ _)
    exact Estate.mem_holdings hx hh

end Dumb
end DisplayBuffers
