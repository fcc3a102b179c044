import DisplayBuffers.Proofs.CallLog
import DisplayBuffers.Proofs.SessionEstate

/-! The log of a session is a record of its driver. Every outcome in it is the driver's answer in
the state that it was in then, which the calls before led to, and what other parties did between
them. -/
namespace DisplayBuffers
variable {σ ι : Type} {D : Driver σ ι}

/-- A log, and the state in which it leaves a driver that began in another. -/
inductive Driver.Recorded (D : Driver σ ι) (d : σ) : List Event → σ → Prop
  | start : D.Recorded d [] d
  | call {l x e} (h : D.Recorded d l x) (given : D.Gives x (l.countP Event.makes) e) :
      D.Recorded d (l ++ [e]) (D.after x (l.countP Event.makes) e)
  | received {l x} (h : D.Recorded d l x) : D.Recorded d l (D.receive x).2
  | outside {l x} (h : D.Recorded d l x) (i : ι) : D.Recorded d l (D.outside i x)
  | shutdown {l x} (h : D.Recorded d l x) : D.Recorded d l (D.shutdown x)

namespace Driver.Recorded
variable {d x : σ} {l : List Event}

/-- Each entry of the log was given in some state. -/
theorem given (h : D.Recorded d l x) {e : Event} (he : e ∈ l) : ∃ y n, D.Gives y n e := by
  induction h with
  | start => cases he
  | call h hg ih =>
    rcases List.mem_append.mp he with he | he
    · exact ih he
    · obtain rfl := List.mem_singleton.mp he
      exact ⟨_, _, hg⟩
  | received h ih | outside h i ih | shutdown h ih => exact ih he

theorem warnings (h : D.Recorded d l x) (ws : List Warning) :
    D.Recorded d (l ++ ws.map .warn) x := by
  induction ws using List.reverseRecOn with
  | nil => simpa using h
  | append_singleton ws w ih =>
    rw [List.map_append, ← List.append_assoc]
    exact ih.call (e := .warn w) trivial

end Driver.Recorded

/-- What a world has on record is the driver's doing. -/
structure World.Recorded (D : Driver σ ι) (d : σ) (w : World σ) : Prop where
  allocations : w.allocations = w.events.countP Event.makes
  log : D.Recorded d w.events w.driver

namespace World.Recorded
variable {d : σ} {w w' : World σ}

/-- One more call. -/
theorem call (h : w.Recorded D d) {e : Event} (he : D.Gives w.driver w.allocations e)
    (hevents : w'.events = w.events ++ [e]) (hdriver : w'.driver = D.after w.driver w.allocations e)
    (hn : w'.allocations = w.allocations + [e].countP Event.makes) : w'.Recorded D d := by
  have hlog := h.log.call (h.allocations ▸ he)
  rw [← h.allocations] at hlog
  exact ⟨by rw [hn, hevents, List.countP_append, h.allocations], by rwa [hevents, hdriver]⟩

/-- One more call that gives something back, with what is warned of. -/
theorem returned (h : w.Recorded D d) {e : Event} (he : D.Gives w.driver w.allocations e)
    (hm : e.makes = false) {ws : List Warning}
    (hevents : w'.events = w.events ++ e :: ws.map .warn)
    (hdriver : w'.driver = D.after w.driver w.allocations e)
    (hn : w'.allocations = w.allocations) : w'.Recorded D d := by
  have hlog := (h.log.call (h.allocations ▸ he)).warnings ws
  rw [← h.allocations, List.append_assoc, List.singleton_append] at hlog
  have hmade : (e :: ws.map .warn).countP Event.makes = 0 := by
    rw [List.countP_cons_of_neg (by simp [hm]), List.countP_eq_zero]
    simp [Event.makes]
  exact ⟨by rw [hn, hevents, List.countP_append, hmade, h.allocations, Nat.add_zero],
    by rwa [hevents, hdriver]⟩

/-- What is not on record. -/
theorem quiet (h : w.Recorded D d) (hevents : w'.events = w.events)
    (hdriver : w'.driver = w.driver) (hn : w'.allocations = w.allocations) : w'.Recorded D d :=
  ⟨by rw [hn, hevents, h.allocations], by rw [hevents, hdriver]; exact h.log⟩

end World.Recorded

theorem Move.recorded {d : σ} {x y : Multiset Holding × World σ} (h : Move D x y)
    (hx : x.2.Recorded D d) : y.2.Recorded D d := by
  cases h with
  | allocated h =>
    have hg := World.allocate_given h
    obtain ⟨-, -, rfl⟩ := World.allocate_ok h
    exact hx.call hg rfl rfl rfl
  | notAllocated hr h =>
    have hg := World.allocate_given h
    obtain rfl := World.allocate_error h
    exact hx.call hg rfl rfl rfl
  | mapped h | notMapped h =>
    have hg := World.map_given h
    obtain rfl := World.map_eq h
    exact hx.call hg rfl rfl rfl
  | @unmapped H w s a =>
    rw [World.unmap_logged]
    exact hx.returned (e := .unmap s a _) rfl rfl rfl rfl rfl
  | @released H w s =>
    rw [World.release_logged]
    exact hx.returned (e := .release s _) rfl rfl rfl rfl rfl
  | exported hr h =>
    have hg := World.exportHandle_given h
    obtain rfl := World.exportHandle_ok h
    exact hx.call hg rfl rfl rfl
  | notExported hr h =>
    have hg := World.exportHandle_given h
    obtain rfl := World.exportHandle_error h
    exact hx.call hg rfl rfl rfl
  | duplicated hr hd h =>
    have hg := World.duplicate_given h
    obtain ⟨-, rfl⟩ := World.duplicate_ok h
    exact hx.call hg rfl rfl rfl
  | notDuplicated hr hd h =>
    have hg := World.duplicate_given h
    obtain rfl := World.duplicate_error h
    exact hx.call hg rfl rfl rfl
  | @closed H w d => exact hx.call (e := .close d) trivial rfl rfl rfl
  | @imported H w d hr hd => exact hx.call (e := .importDescriptor d _) rfl rfl rfl rfl
  | warned x => exact hx.call (e := .warn x) trivial rfl rfl rfl
  | named | stored | joined => exact hx.quiet rfl rfl rfl
  | outside i => exact ⟨hx.allocations, hx.log.outside i⟩
  | @left H w =>
    by_cases hlast : w.holders = 1
    · rw [World.letGo_of_last D hlast]
      exact ⟨hx.allocations, hx.log.shutdown⟩
    · rw [World.letGo_of_others D hlast]
      exact hx.quiet rfl rfl rfl

/-- In every run the outcomes in the log are the driver's answers. -/
theorem Session.run_recorded (D : Driver σ ι) (d : σ) (ops : List (Op ι)) :
    ((start d).run D ops).2.world.Recorded D d := by
  apply run_keeps (I := fun e => e.world.Recorded D d)
  · intro e f h
    exact h.moves.keeps (I := fun x => x.2.Recorded D d) fun _ _ => Move.recorded
  · intro L H n w h
    exact ⟨h.allocations, h.log.received⟩
  · exact ⟨rfl, .start⟩

/-- The storage that a driver allocates has a handle. -/
def Driver.NamesBuffers (D : Driver σ ι) : Prop :=
  ∀ key kind width height format driver a,
    (D.allocate key kind width height format driver).1 = .ok a → a.handle.isNull = false

theorem Driver.Recorded.named {d x : σ} {l : List Event} (h : D.Recorded d l x)
    (hD : D.NamesBuffers) {kind : BufferKind} {width height : UInt32} {format : PixelFormat}
    {st : Storage}
    (he : .allocate kind width height format (.ok st) ∈ l) : st.handle.isNull = false := by
  obtain ⟨y, n, hg⟩ := h.given he
  simp only [Driver.Gives] at hg
  rcases ha : (D.allocate n kind width height format y).1 with e | a
  · simp [ha, Except.map] at hg
  · simp only [ha, Except.map, Except.ok.injEq] at hg
    rw [hg]
    exact hD _ _ _ _ _ _ _ ha

end DisplayBuffers
