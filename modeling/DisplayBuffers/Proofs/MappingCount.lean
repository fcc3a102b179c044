import DisplayBuffers.Proofs.CallsAtTarget

/-! References to a mapping as a counter. What clients ask for and are answered tells how many
references are held, and with it when the driver is called. -/
namespace DisplayBuffers.Session
variable {σ ι : Type} {D : Driver σ ι}

/-- What is asked of a mapping: a reference, one that the driver could not provide, or the return of
one. -/
inductive Demand where
  | acquire
  | attempt
  | release
  deriving DecidableEq, Repr

/-- How many references are held, and the calls to the driver so far. -/
structure Counter where
  count : Nat
  calls : List MappingCall
  deriving DecidableEq, Repr

namespace Counter

def zero : Counter := ⟨0, []⟩

/-- The driver is called for the first reference and after the last. -/
def demand (c : Counter) : Demand → Counter
  | .acquire => ⟨c.count + 1, if c.count = 0 then c.calls ++ [.map] else c.calls⟩
  | .attempt => ⟨c.count, if c.count = 0 then c.calls ++ [.map] else c.calls⟩
  | .release => ⟨c.count - 1, if c.count = 1 then c.calls ++ [.unmap] else c.calls⟩

def demandAll (c : Counter) (ds : List Demand) : Counter := ds.foldl demand c

@[simp] theorem demandAll_nil (c : Counter) : c.demandAll [] = c := rfl

@[simp] theorem demandAll_cons (c : Counter) (d : Demand) (ds : List Demand) :
    c.demandAll (d :: ds) = (c.demand d).demandAll ds := rfl

end Counter

/-- What a request for a reference that failed asked of the mapping. -/
def attempted : Error → List Demand
  | .allocation .mapStorage _ => [.attempt]
  | _ => []

/-- What an operation asks of the mapping of the object at a target. -/
def Turn.demands (t : Target) (e : Turn σ ι) : List Demand :=
  match e.op, e.answer with
  | .acquire u, .address _ | .acquireRegion u _ _ _ _, .address _ =>
    if u = t then [.acquire] else []
  | .acquire u, .failed x | .acquireRegion u _ _ _ _, .failed x | .withMapping u _, .failed x =>
    if u = t then attempted x else []
  | .release u, .done => if u = t then [.release] else []
  | .withMapping u _, .accesses _ => if u = t then [.acquire, .release] else []
  | _, _ => []

/-- The counter starts anew with each object that is made. -/
def Turn.counts (t : Target) (e : Turn σ ι) (c : Counter) : Counter :=
  match e.begins? t with
  | some n => Counter.zero.demandAll (List.replicate n .acquire)
  | none => c.demandAll (e.demands t)

/-- The counter for the object at a target, told from the history. -/
def counter (t : Target) (h : List (Turn σ ι)) : Counter := h.foldl (fun c e => e.counts t c) .zero

theorem counter_concat (t : Target) (h : List (Turn σ ι)) (e : Turn σ ι) :
    counter t (h ++ [e]) = e.counts t (counter t h) := by
  rw [counter, List.foldl_append]
  rfl

/-- A counter tells the references to an object and the calls about its storage. -/
structure Tracked (c : Counter) (b : BufferObject) (w : World σ) : Prop where
  counted : b.Counted
  count : b.references = c.count
  calls : ∀ key, b.key? = some key → w.mappingCalls key = c.calls

namespace Tracked
variable {c : Counter} {b b' : BufferObject} {w w' : World σ}

theorem acquire (h : Tracked c b w) {a : Address} (ha : b.acquire D w = (.ok a, b', w')) :
    Tracked (c.demand .acquire) b' w' where
  counted := (h.counted.acquire_ok ha).1
  count := (h.counted.acquire_ok ha).2.1.trans (congrArg (· + 1) h.count)
  calls key hk := by
    have hk : b.key? = some key := by
      obtain ⟨_, _, rfl⟩ := (Use.acquire ha).same
      exact hk
    rw [BufferObject.mappingCalls_acquire ha, h.calls key hk, Counter.demand, ← h.count]
    simp only [hk, true_and, h.counted.mapping_eq_none_iff]
    split <;> simp

/-- Only a failure of the driver is a call. -/
theorem attempt (h : Tracked c b w) {e : Error} (ha : b.acquire D w = (.error e, b', w')) :
    Tracked (c.demandAll (attempted e)) b' w' := by
  cases BufferObject.acquired ha with
  | failed hb' hm hw =>
    have hz : c.count = 0 := h.count.symm.trans (h.counted.references_eq_zero hm)
    refine ⟨h.counted, ?_, fun key hk => ?_⟩
    · simpa [attempted, Counter.demand] using h.count
    rw [BufferObject.mappingCalls_acquire ha, h.calls key hk]
    simp [attempted, Counter.demand, hk, hm, hz]
  | refused hb' => exact h

theorem release (h : Tracked c b w) (D : Driver σ ι) :
    Tracked (c.demand .release) (b.release D w).1 (b.release D w).2 where
  counted := (h.counted.release D w).1
  count := (h.counted.release D w).2.1.trans (congrArg (· - 1) h.count)
  calls key hk := by
    have hk : b.key? = some key := by
      obtain ⟨_, _, hs⟩ := (Use.release (D := D) (b := b) (w := w)).same
      rw [hs] at hk
      exact hk
    have hone : (b.isMapped = true ∧ b.references ≤ 1) ↔ b.references = 1 := by
      rw [h.counted.mapped]
      omega
    rw [b.mappingCalls_release, h.calls key hk, Counter.demand, ← h.count]
    simp only [hk, true_and, hone]
    split <;> simp

/-- Neither locks nor calls about other storage make a difference. -/
theorem of_calls (h : Tracked c b w) (l : Bool)
    (hw : ∀ key, b.key? = some key → w'.mappingCalls key = w.mappingCalls key) :
    Tracked c { b with locked := l } w' where
  counted := ⟨h.counted.mapped, h.counted.lent⟩
  count := h.count
  calls key hk := (hw key hk).trans (h.calls key hk)

end Tracked

/-- The outcomes of an operation that refers to the mapping of an object, with what it asks of the
mapping. -/
inductive Reference (D : Driver σ ι) (b : BufferObject) (w : World σ) :
    Answer → List Demand → BufferObject → World σ → Prop
  | taken {a b' w'} (h : b.acquire D w = (.ok a, b', w')) :
      Reference D b w (.address a) [.acquire] b' w'
  | denied {e b' w'} (h : b.acquire D w = (.error e, b', w')) :
      Reference D b w (.failed e) (attempted e) b' w'
  | refused : Reference D b w (.failed (.invalidArgument .partialRegion)) [] b w
  | returned : Reference D b w .done [.release] (b.release D w).1 (b.release D w).2
  | guarded {a b' w'} (accesses : List BufferObject.Access)
      (h : b.acquire D w = (.ok a, b', w')) :
      Reference D b w (.accesses (b'.accessAll D a accesses w').1) [.acquire, .release]
        (b'.release D (b'.accessAll D a accesses w').2).1
        (b'.release D (b'.accessAll D a accesses w').2).2

theorem reference {s : Session σ} {op : Op ι} {t : Target} {b : BufferObject}
    (hb : s.object? t = some b) (ho : op.Refers t) :
    Reference D b s.world (s.step D op).1.answer ((s.turn D op).demands t) (s.leaves D op t b)
      (s.step D op).2.world := by
  change Reference D b s.world (s.turn D op).answer _ _ _
  have ht := Op.target?_of_refers ho
  obtain ⟨hturn, hworld⟩ := turn_of_target? (D := D) ht hb
  rw [hturn, hworld, s.leaves_of_target? ht, if_pos rfl]
  cases op with
  | acquire u =>
    obtain rfl : u = t := ho
    rcases hq : b.acquire D s.world with ⟨e | a, b', w⟩
    · simpa [Turn.demands, Op.work, hq] using Reference.denied hq
    · simpa [Turn.demands, Op.work, hq] using Reference.taken hq
  | acquireRegion u x y width height =>
    obtain rfl : u = t := ho
    by_cases hwhole : x = 0 ∧ y = 0 ∧ width = b.width ∧ height = b.height
    · rcases hq : b.acquire D s.world with ⟨e | a, b', w⟩
      · simpa [Turn.demands, Op.work, BufferObject.acquireRegion, hwhole, hq] using
          Reference.denied hq
      · simpa [Turn.demands, Op.work, BufferObject.acquireRegion, hwhole, hq] using
          Reference.taken hq
    · simpa [Turn.demands, Op.work, BufferObject.acquireRegion, hwhole, attempted] using
        Reference.refused
  | release u =>
    obtain rfl : u = t := ho
    simpa [Turn.demands, Op.work] using Reference.returned
  | withMapping u accesses =>
    obtain rfl : u = t := ho
    rcases hq : b.acquire D s.world with ⟨e | a, b', w⟩
    · simpa [Turn.demands, Op.work, BufferObject.withMapping, hq] using Reference.denied hq
    · simpa [Turn.demands, Op.work, BufferObject.withMapping, hq] using
        Reference.guarded accesses hq
  | _ => exact ho.elim

/-- Every request for a reference and every return of one is counted. -/
theorem Reference.tracked {b b' : BufferObject} {w w' : World σ} {answer : Answer}
    {ds : List Demand} (h : Reference D b w answer ds b' w') {c : Counter}
    (hc : Tracked c b w) : Tracked (c.demandAll ds) b' w' := by
  cases h with
  | taken ha => exact hc.acquire ha
  | denied ha => exact hc.attempt ha
  | refused => exact hc
  | returned => exact hc.release D
  | @guarded a b₁ w₁ accesses ha =>
    have h₁ := hc.acquire ha
    -- accesses to the bytes are no calls
    have h₂ : Tracked (c.demand .acquire) b₁ (b₁.accessAll D a accesses w₁).2 :=
      h₁.of_calls b₁.locked fun key _ => b₁.mappingCalls_accessAll a accesses w₁
    exact h₂.release D

theorem leaves_of_not_refers (s : Session σ) {op : Op ι} {t : Target} (h : ¬ op.Refers t)
    (b : BufferObject) : ∃ l, s.leaves D op t b = { b with locked := l } := by
  cases op with
  | acquire u => exact ⟨b.locked, if_neg h⟩
  | acquireRegion u x y width height => exact ⟨b.locked, if_neg h⟩
  | release u => exact ⟨b.locked, if_neg h⟩
  | withMapping u accesses => exact ⟨b.locked, if_neg h⟩
  | lockFront surface name => exact ⟨_, s.leaves_lockFront surface name t b⟩
  | unlock surface name => exact ⟨_, s.leaves_unlock surface name t b⟩
  | _ => exact ⟨b.locked, rfl⟩

theorem Turn.demands_of_not_refers {e : Turn σ ι} {t : Target} (h : ¬ e.op.Refers t) :
    e.demands t = [] := by
  obtain ⟨s, op, a, s'⟩ := e
  unfold demands
  dsimp only at h ⊢
  split
  all_goals first | rfl | exact if_neg h

/-- The object that stays is tracked from turn to turn. -/
theorem Apart.tracked_leaves {s : Session σ} (hs : s.Apart) {op : Op ι} {t : Target}
    {b : BufferObject} {c : Counter} (hb : s.object? t = some b) (h : Tracked c b s.world)
    (hb' : (s.step D op).2.object? t ≠ none) (hn : (s.turn D op).begins? t = none) :
    Tracked (c.demandAll ((s.turn D op).demands t)) (s.leaves D op t b)
      (s.step D op).2.world := by
  by_cases ho : op.Refers t
  · have hp := (reference (D := D) hb ho).tracked h
    exact hp
  · obtain ⟨l, hl⟩ := s.leaves_of_not_refers (D := D) ho b
    rw [Turn.demands_of_not_refers (e := s.turn D op) ho, hl]
    refine h.of_calls l fun key hk => ?_
    by_cases hr : op.Renews t
    · cases ending (D := D) hs hb hk hr with
      | spared _ _ hc => exact hc
      | ended hend => exact (hend.elim hb' (absurd hn)).elim
    · exact mappingCalls_step_of_other hs hb hk hr ho

theorem begins?_le_one {e : Turn σ ι} {t : Target} {r : Nat} (h : e.begins? t = some r) :
    r ≤ 1 := by
  unfold Turn.begins? at h
  split at h
  all_goals grind

theorem unheard (D : Driver σ ι) (d : σ) (ops : List (Op ι)) :
    Unheard (((start d).run D ops).2.estate.holdings, ((start d).run D ops).2.world) := by
  apply run_keeps (I := fun e => Unheard (e.holdings, e.world))
  · intro e f h he
    exact h.moves.keeps (fun _ _ m hx => hx.move m) he
  · intro L H n w h
    rw [Estate.holdings_held_cons]
    refine ⟨h.none, fun s m hs => ?_⟩
    exact h.known s m ((Multiset.mem_cons.mp hs).resolve_left (by simp))
  · refine ⟨fun _ _ => rfl, fun s m hs => ?_⟩
    rcases Estate.mem_holdings_cases hs with ⟨x, hx, _⟩ | ⟨d, hd, _⟩ | h
    · exact absurd hx (Multiset.notMem_zero x)
    · exact absurd hd (Multiset.notMem_zero d)
    · cases h

/-- A new object is mapped at once for each of the references that it begins with. -/
theorem tracked_of_begins {s : Session σ} (hs : s.Apart)
    (hu : Unheard (s.estate.holdings, s.world)) {op : Op ι} {t : Target} {b : BufferObject}
    (hb : (s.step D op).2.object? t = some b) (hn : Newborn s.world b (s.step D op).2.world)
    (hbeg : (s.turn D op).begins? t = some b.references) :
    Tracked (Counter.zero.demandAll (List.replicate b.references .acquire)) b
      (s.step D op).2.world := by
  have hcalls (key : Nat) (hk : b.key? = some key) :
      (s.step D op).2.world.mappingCalls key = List.replicate b.references .map := by
    rw [mappingCalls_made hs hbeg hb hk, hu.none key (hn.stored key hk).1, List.nil_append]
  refine ⟨hn.counted, ?_, fun key hk => (hcalls key hk).trans ?_⟩
  all_goals rcases Nat.le_one_iff_eq_zero_or_eq_one.mp (begins?_le_one hbeg) with hr | hr
  all_goals rw [hr]; rfl

/-- In every run the counter tells the references and the calls. -/
theorem tracked (D : Driver σ ι) (d : σ) (ops : List (Op ι)) (t : Target) (b : BufferObject)
    (hb : ((start d).run D ops).2.object? t = some b) :
    Tracked (counter t ((start d).history D ops)) b ((start d).run D ops).2.world := by
  revert b
  refine history_keeps (I := fun h s => ∀ b, s.object? t = some b → Tracked (counter t h) b s.world)
    ?_ ?_ ops
  · intro b hb
    cases (object?_start d t).symm.trans hb
  · intro ops op ih b' hb'
    have hs := (apart_start d).run (D := D) ops
    rw [counter_concat, Turn.counts]
    rcases lineage _ hb' with ⟨b, hb, rfl, hn⟩ | ⟨_, hnew, hbeg⟩
    · rw [hn]
      exact hs.tracked_leaves hb (ih b hb) (by simp [hb']) hn
    · rw [hbeg]
      exact tracked_of_begins hs (unheard D d ops) hb' hnew hbeg

end DisplayBuffers.Session
