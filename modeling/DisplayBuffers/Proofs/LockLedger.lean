import DisplayBuffers.Proofs.Lineage

/-! Who holds on to which buffers. A surface marks the buffers in its slots; the marks agree with
the ledger of what the display was given and has given back, whatever becomes of the slots. -/
namespace DisplayBuffers.Session
variable {σ ι : Type} {D : Driver σ ι}

/-- The buffer that the display was given by a surface. -/
def Turn.locks? (surface : String) (e : Turn σ ι) : Option BufferId :=
  match e.op, e.answer with
  | .lockFront name _, .identity id => if name = surface then id else none
  | _, _ => none

/-- The buffer that the display gave back to a surface, by its id. -/
def Turn.returns? (surface : String) (e : Turn σ ι) : Option BufferId :=
  match e.op, e.answer with
  | .unlock name id, .done => if name = surface then e.before.ids.find? id else none
  | _, _ => none

/-- The display was given the buffer by the surface and has not given it back to it since. -/
def OnLoan (surface : String) (id : BufferId) (h : List (Turn σ ι)) : Prop :=
  ∃ l e l', h = l ++ e :: l' ∧ e.locks? surface = some id ∧
    ∀ e' ∈ l', e'.returns? surface ≠ some id

theorem onLoan_concat {surface : String} {id : BufferId} {h : List (Turn σ ι)} {e : Turn σ ι} :
    OnLoan surface id (h ++ [e]) ↔ e.locks? surface = some id ∨
      OnLoan surface id h ∧ e.returns? surface ≠ some id := by
  constructor
  · rintro ⟨l, e₀, l', heq, he, hl⟩
    rcases List.eq_nil_or_concat l' with rfl | ⟨l', e', rfl⟩
    · have hlast := List.singleton_inj.mp (List.append_inj' heq rfl).2
      rw [hlast]
      exact .inl he
    · have heq : h ++ [e] = (l ++ e₀ :: l') ++ [e'] := by simpa using heq
      obtain ⟨hinit, hlast⟩ := List.append_inj' heq rfl
      rw [List.singleton_inj.mp hlast]
      refine .inr ⟨⟨l, e₀, l', hinit, he, ?_⟩, hl e' (by simp)⟩
      intro x hx
      exact hl x (by simp [hx])
  · rintro (he | ⟨⟨l, e₀, l', heq, he, hl⟩, hr⟩)
    · exact ⟨h, e, [], rfl, he, by simp⟩
    · refine ⟨l, e₀, l' ++ [e], by simp [heq], he, ?_⟩
      intro x hx
      rcases List.mem_append.mp hx with hx | hx
      · exact hl x hx
      · rw [List.mem_singleton.mp hx]
        exact hr

theorem OnLoan.locked {surface : String} {id : BufferId} {h : List (Turn σ ι)}
    (hl : OnLoan surface id h) : ∃ e ∈ h, e.locks? surface = some id := by
  obtain ⟨l, e, l', rfl, he, _⟩ := hl
  exact ⟨e, List.mem_append_right _ List.mem_cons_self, he⟩

theorem Turn.locks?_of_not_locks {e : Turn σ ι} (h : ¬ e.op.Locks) (surface : String) :
    e.locks? surface = none := by
  unfold locks?
  split
  · next hop _ => exact absurd (by rw [hop]; trivial) h
  · rfl

theorem Turn.returns?_of_not_locks {e : Turn σ ι} (h : ¬ e.op.Locks) (surface : String) :
    e.returns? surface = none := by
  unfold returns?
  split
  · next hop _ => exact absurd (by rw [hop]; trivial) h
  · rfl

/-- The display is given what is in the slot that is the front. -/
theorem locks?_lockFront (s : Session σ) (surface m : String) (name : Option String) :
    (s.turn D (.lockFront m name)).locks? surface =
      if m = surface then ((s.front? surface).bind s.object?).map (·.id) else none := by
  by_cases hm : m = surface
  · subst hm
    rw [if_pos rfl]
    simp only [Turn.locks?, turn, answer_lockFront]
    cases hx : s.surfaces.find? m with
    | none => simp [front?, frontIndex?, hx]
    | some x =>
      cases hf : x.front with
      | none => simp [front?, frontIndex?, hx, hf]
      | some i => simp [front?, frontIndex?, object?, hx, hf]
  · rw [if_neg hm]
    simp only [Turn.locks?, turn]
    split
    · next hop _ =>
      obtain ⟨rfl, rfl⟩ := Op.lockFront.inj hop
      exact if_neg hm
    · rfl

theorem returns?_unlock (s : Session σ) (surface m name : String) :
    (s.turn D (.unlock m name)).returns? surface =
      if m = surface ∧ (s.surfaces.find? surface).isSome then s.ids.find? name else none := by
  by_cases hm : m = surface
  · subst hm
    cases hid : s.ids.find? name with
    | none => simp [Turn.returns?, turn, step, hid, refuse]
    | some id =>
      cases hx : s.surfaces.find? m with
      | none => simp [Turn.returns?, turn, step, onSurface, hid, hx, refuse]
      | some x => simp [Turn.returns?, turn, step, onSurface, hid, hx]
  · rw [if_neg (fun h => hm h.1)]
    simp only [Turn.returns?, turn]
    split
    · next hop _ =>
      obtain ⟨rfl, rfl⟩ := Op.unlock.inj hop
      exact if_neg hm
    · rfl

/-- The mark of a buffer in a slot follows the ledger. -/
theorem Apart.locked_leaves {s : Session σ} (hs : s.Apart) (op : Op ι) {surface : String} {i : Nat}
    {b : BufferObject} (hb : s.object? (.slot surface i) = some b) :
    (s.leaves D op (.slot surface i) b).locked = true ↔
      (s.turn D op).locks? surface = some b.id ∨
        b.locked = true ∧ (s.turn D op).returns? surface ≠ some b.id := by
  by_cases hop : op.Locks
  · cases op with
    | lockFront m name =>
      have hfront : s.front? m = some (.slot surface i) ↔
          m = surface ∧ ((s.front? surface).bind s.object?).map (·.id) = some b.id := by
        constructor
        · intro hf
          obtain ⟨x, j, _, _, ht⟩ := front?_eq_some.mp hf
          obtain ⟨rfl, rfl⟩ := Target.slot.inj ht
          simp [hf, hb]
        · rintro ⟨rfl, hid⟩
          obtain ⟨c, hc, hid⟩ := Option.map_eq_some_iff.mp hid
          obtain ⟨t, ht, hc⟩ := Option.bind_eq_some_iff.mp hc
          rw [ht, hs.named hc hb hid]
      have hr : (s.turn D (.lockFront m name)).returns? surface = none := rfl
      rw [leaves_lockFront, locks?_lockFront, hr]
      simp [hfront, or_comm]
    | unlock m name =>
      have hx : (s.surfaces.find? surface).isSome := by
        obtain ⟨x, hx, _⟩ := Option.bind_eq_some_iff.mp hb
        simp [hx]
      have hl : (s.turn D (.unlock m name)).locks? surface = none := rfl
      rw [leaves_unlock, returns?_unlock, hl]
      by_cases hm : m = surface
      · simp [hx, Target.surface?, hm]
      · simp [hm, Ne.symm hm, Target.surface?]
    | _ => exact hop.elim
  · obtain ⟨_, _, hl⟩ := s.leaves_used (D := D) hop (.slot surface i) b
    rw [hl, Turn.locks?_of_not_locks hop, Turn.returns?_of_not_locks hop]
    simp

/-- What the display is given has a number that was given out. -/
private theorem Apart.numbered_of_locks {s : Session σ} (hs : s.Apart) {op : Op ι}
    {surface : String} {id : BufferId} (h : (s.turn D op).locks? surface = some id) :
    id.number < s.world.identities := by
  by_cases hop : op.Locks
  · cases op with
    | lockFront m name =>
      rw [locks?_lockFront] at h
      split at h
      · obtain ⟨b, hb, rfl⟩ := Option.map_eq_some_iff.mp h
        obtain ⟨t, _, hb⟩ := Option.bind_eq_some_iff.mp hb
        exact hs.numbered hb
      · cases h
    | unlock m name => cases h
    | _ => exact hop.elim
  · cases (Turn.locks?_of_not_locks hop surface).symm.trans h

private theorem not_locks_of_makes {op : Op ι} {t : Target} (h : op.makes? = some t) :
    ¬ op.Locks := by
  cases op <;> first | exact id | cases h

/-- The marks of the buffers agree with the ledger. -/
structure Ledger (h : List (Turn σ ι)) (s : Session σ) : Prop where
  apart : s.Apart
  numbered : ∀ {surface id}, OnLoan surface id h → id.number < s.world.identities
  slots : ∀ {surface i b}, s.object? (.slot surface i) = some b →
    (b.locked = true ↔ OnLoan surface b.id h)
  own : ∀ {name b}, s.object? (.object name) = some b → b.locked = false

theorem Ledger.step {h : List (Turn σ ι)} {s : Session σ} (hl : Ledger h s) (op : Op ι) :
    Ledger (h ++ [s.turn D op]) (s.step D op).2 where
  apart := hl.apart.step op
  numbered {surface id} hid := by
    have hn : id.number < s.world.identities := by
      rcases onLoan_concat.mp hid with hid | ⟨hid, _⟩
      · exact hl.apart.numbered_of_locks hid
      · exact hl.numbered hid
    exact hn.trans_le (s.step_advances op).identities
  slots {surface i b'} hb' := by
    rw [onLoan_concat]
    rcases s.lineage hb' with ⟨b, hb, rfl, _⟩ | ⟨hm, hn, _⟩
    · rw [hl.apart.locked_leaves op hb, hl.slots hb, leaves_id]
    · -- a new number is in no ledger
      have hnone : ¬ OnLoan surface b'.id h := by
        intro hid
        have := hl.numbered hid
        have := hn.above
        omega
      simp [hn.unlocked, hnone, Turn.locks?_of_not_locks (e := s.turn D op) (not_locks_of_makes hm)]
  own {name b'} hb' := by
    rcases s.lineage hb' with ⟨b, hb, rfl, _⟩ | ⟨_, hn, _⟩
    · by_cases hop : op.Locks
      · cases op with
        | lockFront m n =>
          have hf : s.front? m ≠ some (.object name) := by simp [front?_eq_some]
          rw [leaves_lockFront]
          simp [hl.own hb, hf]
        | unlock m n =>
          rw [leaves_unlock]
          simp [hl.own hb]
        | _ => exact hop.elim
      · obtain ⟨_, _, hl'⟩ := s.leaves_used (D := D) hop (.object name) b
        have hunlocked : b.locked = false := hl.own hb
        rw [hl']
        exact hunlocked
    · exact hn.unlocked

theorem ledger (D : Driver σ ι) (d : σ) (ops : List (Op ι)) :
    Ledger ((start d).history D ops) ((start d).run D ops).2 := by
  refine history_keeps ⟨apart_start d, ?_, ?_, ?_⟩ (fun ops op hl => hl.step op) ops
  · rintro surface id ⟨l, e, l', h, _⟩
    cases (List.append_ne_nil_of_right_ne_nil l (List.cons_ne_nil e l')).symm h
  · intro surface i b hb
    cases (object?_start d _).symm.trans hb
  · intro name b hb
    cases (object?_start d _).symm.trans hb

/-- An id with which the display can give nothing back to a surface. -/
inductive Stale (D : Driver σ ι) (d : σ) (ops : List (Op ι)) (surface : String) (id : BufferId) :
    Prop
  | replaced {ops₁ ops₂ i b} (hops : ops = ops₁ ++ ops₂)
      (hb : ((start d).run D ops₁).2.object? (.slot surface i) = some b) (hid : b.id = id)
      (hgone : ∀ c, ((start d).run D ops).2.object? (.slot surface i) = some c → c.id ≠ id)
  | elsewhere {ops₁ ops₂ t b} (hops : ops = ops₁ ++ ops₂)
      (hb : ((start d).run D ops₁).2.object? t = some b) (hid : b.id = id)
      (ht : t.surface? ≠ some surface)
  | neverLocked (h : ∀ e ∈ (start d).history D ops, e.locks? surface ≠ some id)

/-- No buffer in the slots has such an id, or the one that has it is not locked. -/
theorem Stale.unlocked {d : σ} {ops : List (Op ι)} {surface : String} {id : BufferId}
    (h : Stale D d ops surface id) {i : Nat} {b : BufferObject}
    (hb : ((start d).run D ops).2.object? (.slot surface i) = some b) :
    Surface.unlocked id b = b := by
  by_cases hid : b.id = id
  · cases h with
    | replaced hops hb' hid' hgone =>
      rw [hops, run_append] at hb
      obtain ⟨ht, _⟩ := ((apart_start d).run _).stays hb' hb (hid.trans hid'.symm)
      obtain ⟨_, rfl⟩ := Target.slot.inj ht
      rw [hops, run_append] at hgone
      exact absurd hid (hgone b hb)
    | elsewhere hops hb' hid' ht =>
      rw [hops, run_append] at hb
      obtain ⟨rfl, _⟩ := ((apart_start d).run _).stays hb' hb (hid.trans hid'.symm)
      exact absurd rfl ht
    | neverLocked h =>
      have hl : b.locked = false := by
        rw [← Bool.not_eq_true, (ledger D d ops).slots hb]
        intro hloan
        obtain ⟨e, he, hid'⟩ := hloan.locked
        exact h e he (hid ▸ hid')
      rw [Surface.unlocked, if_pos hid, ← hl]
  · exact if_neg hid

/-- Buffers are locked just while they are on loan, and only in the slots of surfaces. -/
theorem locked_iff_on_loan (D : Driver σ ι) (d : σ) (ops : List (Op ι)) :
    let h := (start d).history D ops
    let s := ((start d).run D ops).2
    (∀ surface i b, s.object? (.slot surface i) = some b →
      (b.locked = true ↔ OnLoan surface b.id h)) ∧
    (∀ name b, s.object? (.object name) = some b → b.locked = false) ∧
    (∀ surface x, s.surfaces.find? surface = some x → (x.hasFree = false ↔
      ∀ i < slotCount, ∃ b, s.object? (.slot surface i) = some b ∧ OnLoan surface b.id h)) ∧
    (∀ op t r, (s.turn D op).begins? t = some r →
      ∃ b, (s.step D op).2.object? t = some b ∧ b.locked = false) ∧
    (∀ surface x name id, s.surfaces.find? surface = some x → s.ids.find? name = some id →
      Stale D d ops surface id → s.Alike (s.step D (.unlock surface name)).2) := by
  intro h s
  have hl : Ledger h s := ledger D d ops
  refine ⟨fun surface i b => hl.slots, fun name b => hl.own, ?_, ?_, ?_⟩
  · intro surface x hx
    have hslot (i : Nat) : s.object? (.slot surface i) = x.slot? i := by
      simp [object?, hx]
    rw [← Bool.not_eq_true, x.hasFree_iff]
    push Not
    refine forall₂_congr fun i hi => exists_congr fun b => ?_
    rw [hslot]
    refine and_congr_right fun hb => ?_
    rw [← hl.slots ((hslot i).trans hb), ne_eq, Bool.not_eq_false]
  · intro op t r hr
    obtain ⟨b, hb, _, hn, _⟩ := made_of_begins hr
    exact ⟨b, hb, hn.unlocked⟩
  · intro surface x name id hx hid hstale
    have hsame : x.unlock id = x := by
      apply Surface.unlock_eq_self
      intro i b hb
      have hb : s.object? (.slot surface i) = some b := by simp [object?, hx, hb]
      exact hstale.unlocked hb
    have halike := alike_onSurface (f := fun x w => (.done, x.unlock id, w)) hx
      (congrArg (·, s.world) hsame)
    rw [step, hid]
    exact halike

end DisplayBuffers.Session
