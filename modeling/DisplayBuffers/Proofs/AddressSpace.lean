import DisplayBuffers.Proofs.ByteArray
import DisplayBuffers.Proofs.DriverRecord
import DisplayBuffers.Proofs.MappingCount
import DisplayBuffers.Proofs.StorageProtocol

/-! The address space of the process. What a client relies on is that storage shows the same bytes
each time it is mapped, wherever that is, and that nothing is mapped over memory of its own. Nothing
is known of what lies beyond a mapping. -/
namespace DisplayBuffers
variable {σ ι : Type} {D : Driver σ ι}

/-- The storage was allocated. -/
def Storage.Allocated (s : Storage) (l : List Event) : Prop :=
  ∃ kind width height format, .allocate kind width height format (.ok s) ∈ l

/-- The storage was allocated, and has not been released since. -/
def Storage.Alive (s : Storage) (l : List Event) : Prop :=
  ∃ m, Life.after s.key l = some (.inHand s m)

namespace Life

/-- What a life has come to is in the log. -/
def Told (l : List Event) : Life → Prop
  | .absent | .released => True
  | .unmapped s => s.Allocated l
  | .mapped s a => s.Allocated l ∧ .map s (.ok a) ∈ l

theorem Told.append {l : List Event} {life : Life} (h : life.Told l) (e : Event) :
    life.Told (l ++ [e]) := by
  have hs {s : Storage} : s.Allocated l → s.Allocated (l ++ [e]) := fun ⟨k, x, y, f, hm⟩ =>
    ⟨k, x, y, f, List.mem_append_left _ hm⟩
  cases life with
  | absent | released => trivial
  | unmapped s => exact hs h
  | mapped s a => exact ⟨hs h.1, List.mem_append_left _ h.2⟩

theorem Told.next {l : List Event} {life life' : Life} {e : Event} (h : life.Told l)
    (hn : life.next e = some life') : life'.Told (l ++ [e]) := by
  have hlast : e ∈ l ++ [e] := List.mem_append_right _ List.mem_cons_self
  have hold := h.append e
  unfold Life.next at hn
  split at hn
  · cases hn
    exact ⟨_, _, _, _, hlast⟩
  · split at hn
    · next he =>
      cases hn
      exact ⟨hold, he ▸ hlast⟩
    · cases hn
  · split at hn
    · cases hn
      exact hold
    · cases hn
  · split at hn
    · cases hn
      exact hold.1
    · cases hn
  · split at hn
    · cases hn
      trivial
    · cases hn
  · cases hn

theorem told_after {key : Nat} {l : List Event} {life : Life} (h : after key l = some life) :
    life.Told l := by
  induction l using List.reverseRecOn generalizing life with
  | nil =>
    obtain rfl : Life.absent = life := Option.some.inj h
    trivial
  | append_singleton l e ih =>
    by_cases he : e.key? = some key
    · rw [after_append_of_eq he] at h
      obtain ⟨before, hbefore, hnext⟩ := Option.bind_eq_some_iff.mp h
      exact (ih hbefore).next hnext
    · rw [after_append_of_ne he] at h
      exact (ih h).append e

end Life

theorem Storage.Alive.allocated {s : Storage} {l : List Event} (h : s.Alive l) :
    s.Allocated l := by
  obtain ⟨m, hm⟩ := h
  cases m with
  | none => exact Life.told_after hm
  | some a => exact (Life.told_after hm).1

/-- A driver that shows the same bytes each time it maps a storage: those in the storage's home,
which no other storage that is alive has a part in, and which is not memory of a client. -/
structure Driver.ShowsStorage (D : Driver σ ι) (d : σ) (home : σ → Storage → Nat → Cell) :
    Prop where
  shown : ∀ ops st a, let w := ((Session.start d).run D ops).2.world
    Life.after st.key w.events = some (.mapped st a) →
    ∀ i < st.length, w.view D a i = home w.driver st i
  stays : ∀ ops op st, let w := ((Session.start d).run D ops).2.world
    let w' := ((Session.start d).run D (ops ++ [op])).2.world
    st.Alive w.events → st.Alive w'.events → ∀ i < st.length,
    home w'.driver st i = home w.driver st i
  own : ∀ ops st st', let w := ((Session.start d).run D ops).2.world
    st.Alive w.events → st'.Alive w.events → ∀ i < st.length, ∀ j < st'.length,
    home w.driver st i = home w.driver st' j → st.key = st'.key ∧ i = j
  apart : ∀ ops st, let w := ((Session.start d).run D ops).2.world
    st.Alive w.events → ∀ i < st.length, ∀ key j, home w.driver st i ≠ .client key j

/-- A driver that maps nothing over memory that the client brought. -/
structure Driver.SparesClient (D : Driver σ ι) (d : σ) : Prop where
  lent : ∀ ops x, let s := ((Session.start d).run D ops).2
    x ∈ s.memories → ∀ i < x.2.length, s.world.view D x.2.address i = .client x.2.key i
  apart : ∀ ops st a, let w := ((Session.start d).run D ops).2.world
    Life.after st.key w.events = some (.mapped st a) →
    ∀ i < st.length, ∀ key j, w.view D a i ≠ .client key j

namespace BufferObject
variable {b : BufferObject}

/-- The memory of a client that the object shows, if any. -/
def lent? (b : BufferObject) : Option Address :=
  match b.backing with
  | .owned _ _ => none
  | .borrowed _ a => a

theorem lent?_of_owned {s : Storage} {d : Dmabuf} (h : b.backing = .owned s d) :
    b.lent? = none := by
  rw [lent?, h]

end BufferObject

namespace Session

/-- Where the bytes of an object are, and how many there are behind it. -/
inductive Lies (home : σ → Storage → Nat → Cell) (s : Session σ) (b : BufferObject) :
    (Nat → Cell) → Nat → Prop
  | owned {st d} (h : b.backing = .owned st d) : Lies home s b (home s.world.driver st) st.length
  | lent {d x} (h : b.backing = .borrowed d (some x.2.address)) (hx : x ∈ s.memories) :
      Lies home s b (.client x.2.key) x.2.length

/-- If an object can be mapped, there are as many bytes behind it as it tells. -/
def Covers (s : Session σ) (b : BufferObject) : Prop :=
  match b.backing with
  | .owned st _ => b.byteSize ≤ st.length
  | .borrowed _ none => True
  | .borrowed _ (some a) => ∃ x ∈ s.memories, x.2.address = a ∧ b.byteSize ≤ x.2.length

section Memories
variable (s : Session σ)

@[simp] theorem memories_onObject (t : Target)
    (f : BufferObject → World σ → Answer × BufferObject × World σ) :
    (s.onObject t f).2.memories = s.memories := by
  cases t with
  | object name =>
    rw [onObject]
    split <;> rfl
  | slot surface i =>
    rw [onObject]
    split
    · rfl
    · split <;> rfl

@[simp] theorem memories_onSurface (surface : String)
    (f : Surface → World σ → Answer × Surface × World σ) :
    (s.onSurface surface f).2.memories = s.memories := by
  rw [onSurface]
  split <;> rfl

@[simp] theorem memories_addObject (name : String)
    (made : Except Error BufferObject × World σ) :
    (s.addObject D name made).2.memories = s.memories := by
  obtain ⟨e | b, w⟩ := made <;> rfl

theorem memories_onDevice {f : Session σ → Outcome × Session σ}
    (h : (f s).2.memories = s.memories) : (s.onDevice f).2.memories = s.memories := by
  rw [onDevice]
  split
  · exact h
  · rfl

/-- The client's memory stays, and only the client brings more. -/
theorem memories_step {op : Op ι} (h : ∀ name length, op ≠ .newMemory name length) :
    (s.step D op).2.memories = s.memories := by
  cases op with
  | newMemory name length => exact absurd rfl (h name length)
  | outside | receive => rfl
  | close name | destroy name | destroySurface name | readMemory name _ _ =>
    simp only [step]
    split <;> rfl
  | deviceName | supportsFormat | layoutPlanes | destroyDevice => exact s.memories_onDevice rfl
  | create | createBuffer => exact s.memories_onDevice (memories_addObject _ _ _)
  | importFrom name source =>
    refine s.memories_onDevice ?_
    split
    · rfl
    · exact memories_addObject _ _ _
  | createSurface | exportHandle =>
    refine s.memories_onDevice ?_
    split <;> rfl
  | importDescriptor name =>
    refine s.memories_onDevice ?_
    split
    · rfl
    · split <;> rfl
  | acquire | acquireRegion | release | write | withMapping | inspect | plane =>
    exact s.memories_onObject _ _
  | saveId t name =>
    simp only [step, saveId]
    split <;> exact s.memories_onObject _ _
  | share t name =>
    simp only [step, shareObject]
    split <;> exact s.memories_onObject _ _
  | inspectSurface | allocate | setFront => exact s.memories_onSurface _ _
  | replace surface i buffer =>
    simp only [step, replace]
    split
    · rfl
    · exact s.memories_onSurface _ _
    · split
      · rfl
      · exact memories_onSurface _ _ _
  | lockFront surface name =>
    simp only [step, lockFront]
    split <;> exact s.memories_onSurface _ _
  | unlock surface name =>
    simp only [step]
    split
    · rfl
    · exact s.memories_onSurface _ _

theorem memories_run (ops : List (Op ι)) : s.memories ⊆ (s.run D ops).2.memories := by
  induction ops generalizing s with
  | nil => exact fun _ h => h
  | cons op ops ih =>
    refine List.Subset.trans ?_ (ih (s.step D op).2)
    by_cases h : ∃ name length, op = .newMemory name length
    · obtain ⟨name, length, rfl⟩ := h
      exact List.subset_cons_self _ _
    · push Not at h
      rw [s.memories_step h]
      exact List.Subset.refl _

end Memories

/-- The calls for storage that an object owns have come to what the object knows. -/
theorem life_of_object (D : Driver σ ι) (d : σ) (ops : List (Op ι)) {t : Target}
    {b : BufferObject} {st : Storage} {x : Dmabuf} (hb : ((start d).run D ops).2.object? t = some b)
    (hback : b.backing = .owned st x) :
    Life.after st.key ((start d).run D ops).2.world.events =
      some (.inHand st b.mapping) := by
  obtain ⟨life, hlife, hheld, -⟩ := inTurn_run st.key D d ops
  have hmem : Holding.storage st b.mapping ∈
      keyed st.key ((start d).run D ops).2.estate.holdings :=
    Multiset.mem_filter.mpr ⟨storage_held hb hback, rfl⟩
  rw [hheld] at hmem
  obtain ⟨H, hH⟩ := Multiset.exists_cons_of_mem hmem
  rw [hlife, (Life.inHand_of_holding hH).1]

theorem alive_of_object (D : Driver σ ι) (d : σ) (ops : List (Op ι)) {t : Target}
    {b : BufferObject} {st : Storage} {x : Dmabuf} (hb : ((start d).run D ops).2.object? t = some b)
    (hback : b.backing = .owned st x) : st.Alive ((start d).run D ops).2.world.events :=
  ⟨b.mapping, life_of_object D d ops hb hback⟩

/-- Whoever acquires a reference leaves the session in a state that a client can reach. -/
theorem step_acquire {s : Session σ} {t : Target} {b b' : BufferObject} {w : World σ} {a : Address}
    (hb : s.object? t = some b) (h : b.acquire D s.world = (.ok a, b', w)) :
    (s.step D (.acquire t)).2.world = w ∧ (s.step D (.acquire t)).2.object? t = some b' ∧
      (s.step D (.acquire t)).2.memories = s.memories := by
  have hop : (Op.acquire t : Op ι).target? = some t := rfl
  have hobject : (s.step D (.acquire t)).2.object? t = some b' := by
    rw [object?_step_of_not_renews s (Op.not_renews_of_target? hop t), hb]
    simp [leaves, h]
  refine ⟨?_, hobject, ?_⟩
  · obtain ⟨-, hw⟩ := turn_of_target? (D := D) hop hb
    rw [hw, Op.work_acquire, h]
  · exact memories_step s (by simp)

section
variable {d : σ} {ops : List (Op ι)} {t : Target} {b b' : BufferObject} {w : World σ} {a : Address}

/-- Owned storage is mapped for as long as somebody holds a reference. -/
theorem mapped_of_acquire {st : Storage} {x : Dmabuf}
    (hb : ((start d).run D ops).2.object? t = some b) (hback : b.backing = .owned st x)
    (h : b.acquire D ((start d).run D ops).2.world = (.ok a, b', w)) :
    ((start d).run D (ops ++ [.acquire t])).2.world = w ∧
      Life.after st.key w.events = some (.mapped st a) := by
  obtain ⟨hw, hb', -⟩ := step_acquire hb h
  have hb'' : b'.backing = .owned st x ∧ b'.mapping = some a := by
    rw [BufferObject.acquire_retains h]
    exact ⟨hback, rfl⟩
  rw [← run_concat] at hw hb'
  have hlife := life_of_object D d _ hb' hb''.1
  rw [hw, hb''.2] at hlife
  exact ⟨hw, hlife⟩

theorem view_of_owned {home : σ → Storage → Nat → Cell} (hD : D.ShowsStorage d home) {st : Storage}
    {x : Dmabuf} (hb : ((start d).run D ops).2.object? t = some b)
    (hback : b.backing = .owned st x)
    (h : b.acquire D ((start d).run D ops).2.world = (.ok a, b', w)) (i : Nat)
    (hi : i < st.length) :
    w.view D a i = home ((start d).run D ops).2.world.driver st i := by
  obtain ⟨hw, hlife⟩ := mapped_of_acquire hb hback h
  have hshown := hD.shown (ops ++ [.acquire t]) st a
  have hstays := hD.stays ops (.acquire t) st (alive_of_object D d ops hb hback)
  rw [hw] at hshown hstays
  exact (hshown hlife i hi).trans (hstays ⟨some a, hlife⟩ i hi)

theorem view_of_lent (hD : D.SparesClient d) {y : Option Dmabuf} {x : String × ClientMemory}
    (hback : b.backing = .borrowed y (some x.2.address))
    (hx : x ∈ ((start d).run D ops).2.memories)
    (h : b.acquire D ((start d).run D ops).2.world = (.ok a, b', w)) (i : Nat)
    (hi : i < x.2.length) : w.view D a i = .client x.2.key i := by
  cases BufferObject.acquired h with
  | again hb | first hb => cases hb.symm.trans hback
  | lent hb =>
    cases hb.symm.trans hback
    exact hD.lent ops x hx i hi

namespace Lies
variable {home : σ → Storage → Nat → Cell} {v : Nat → Cell} {n : Nat}

/-- However an object is mapped, it is mapped where its bytes are. -/
theorem view (h : ((start d).run D ops).2.Lies home b v n) (hC : D.SparesClient d)
    (hD : b.lent? = none → D.ShowsStorage d home) (hb : ((start d).run D ops).2.object? t = some b)
    (ha : b.acquire D ((start d).run D ops).2.world = (.ok a, b', w)) (i : Nat) (hi : i < n) :
    w.view D a i = v i := by
  cases h with
  | owned hback => exact view_of_owned (hD (BufferObject.lent?_of_owned hback)) hb hback ha i hi
  | lent hback hx => exact view_of_lent hC hback hx ha i hi

/-- The bytes of an object stay where they are. -/
theorem step (h : ((start d).run D ops).2.Lies home b v n)
    (hD : b.lent? = none → D.ShowsStorage d home) {op : Op ι}
    (hb : ((start d).run D ops).2.object? t = some b)
    (hb' : ((start d).run D (ops ++ [op])).2.object? t = some b')
    (hback' : b'.backing = b.backing) :
    ∃ v', ((start d).run D (ops ++ [op])).2.Lies home b' v' n ∧ ∀ i < n, v' i = v i := by
  cases h with
  | @owned st x hback =>
    have hback' := hback'.trans hback
    refine ⟨_, .owned hback', fun i hi => ?_⟩
    exact (hD (BufferObject.lent?_of_owned hback)).stays ops op st
      (alive_of_object D d ops hb hback) (alive_of_object D d _ hb' hback') i hi
  | @lent y x hback hx =>
    refine ⟨_, .lent (hback'.trans hback) ?_, fun i hi => rfl⟩
    rw [run_append]
    exact memories_run _ _ hx

end Lies

/-- What is covered stays so. -/
theorem Covers.stays {s : Session σ} (h : s.Covers b) (hs : s.Apart) {ops : List (Op ι)}
    (hb : s.object? t = some b) (hb' : (s.run D ops).2.object? t = some b') (hid : b'.id = b.id) :
    (s.run D ops).2.Covers b' := by
  obtain ⟨-, hback, hsize⟩ := hs.stays hb hb' hid
  rw [Covers] at h ⊢
  rw [hback, hsize]
  rcases hb : b.backing with ⟨st, x⟩ | ⟨y, _ | a'⟩ <;> rw [hb] at h
  · exact h
  · trivial
  · obtain ⟨x, hx, hrest⟩ := h
    exact ⟨x, memories_run s ops hx, hrest⟩

end
end Session
end DisplayBuffers
