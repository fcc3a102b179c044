import DisplayBuffers.Proofs.Borrowed
import DisplayBuffers.Proofs.CallProtocol
import DisplayBuffers.Proofs.DriverRecord
import DisplayBuffers.Proofs.FailedMapping

/-! What the kernel sees of a session with dumb buffers. Every buffer is mapped, unmapped and
destroyed in turn, whatever the kernel answers, and what was only borrowed is left alone. -/
namespace DisplayBuffers.Dumb
variable {κ ι : Type} {K : Kernel κ ι}
open Session (Op)

namespace Phase
variable {key : Nat} {l : List (Option Storage × Call)} {st : Storage}

/-- What the phases of a buffer have in common once there is one. -/
def Concerns (st : Storage) : Phase → Prop
  | .absent => False
  | .unmapped s | .offered s _ | .mapped s _ => s = st
  | .destroyed => True

theorem Concerns.takes {p q : Phase} {st' : Storage} {c : Call} (h : p.Concerns st)
    (hc : p.Takes st' c q) : q.Concerns st := by
  cases hc with
  | created => exact h.elim
  | destroyed => trivial
  | _ => exact h

theorem Concerns.later {p q : Phase} (h : p.Concerns st)
    (hl : l.foldlM (advance key) p = some q) : q.Concerns st := by
  induction l generalizing p with
  | nil =>
    obtain rfl := Option.some.inj hl
    exact h
  | cons x l ih =>
    rw [List.foldlM_cons] at hl
    obtain ⟨p', hp, hl⟩ := Option.bind_eq_some_iff.mp hl
    refine ih ?_ hl
    rcases advance_cases hp with ⟨_, _, _, _, htakes⟩ | ⟨_, rfl⟩
    · exact h.takes htakes
    · exact h

/-- A buffer that is not mapped any more at some address was unmapped there. -/
theorem munmap_of_mapped {a : Address} {q : Phase}
    (h : l.foldlM (advance key) (.mapped st a) = some q) (hq : q ≠ .mapped st a) :
    ∃ r, (some st, .munmap a st.length r) ∈ l := by
  induction l with
  | nil => exact absurd (Option.some.inj h).symm hq
  | cons x l ih =>
    rw [List.foldlM_cons] at h
    obtain ⟨p, hp, h⟩ := Option.bind_eq_some_iff.mp h
    rcases advance_cases hp with ⟨st', c, rfl, _, htakes⟩ | ⟨_, rfl⟩
    · cases htakes with
      | unmapped => exact ⟨_, List.mem_cons_self⟩
    · obtain ⟨r, hr⟩ := ih h
      exact ⟨r, List.mem_cons_of_mem _ hr⟩

/-- A buffer that is destroyed was destroyed by a call. -/
theorem destroyed_at (h : after key l = some .destroyed) :
    ∃ l₁ st r l₂, l = l₁ ++ (some st, .destroyDumb st.handle r) :: l₂ ∧ Elsewhere key l₂ ∧
      st.key = key ∧ after key l₁ = some (.unmapped st) := by
  induction l using List.reverseRecOn with
  | nil => cases h
  | append_singleton l x ih =>
    rw [after_concat] at h
    obtain ⟨p, hp, h⟩ := Option.bind_eq_some_iff.mp h
    rcases advance_cases h with ⟨st, c, rfl, hk, htakes⟩ | ⟨hx, rfl⟩
    · cases htakes with
      | destroyed => exact ⟨l, st, _, [], rfl, fun y hy => (List.not_mem_nil hy).elim, hk, hp⟩
    · obtain ⟨l₁, st, r, l₂, rfl, hl, hk, hafter⟩ := ih hp
      exact ⟨l₁, st, r, l₂ ++ [x], by simp, hl.concat hx, hk, hafter⟩

end Phase

theorem Elsewhere.ne {l : List (Option Storage × Call)} {st : Storage}
    (h : Phase.Elsewhere st.key l) : ∀ x ∈ l, x.1 ≠ some st :=
  fun x hx he => h x hx (congrArg (Option.map (·.key)) he)

/-- The calls to the kernel, each with the storage it is made for, as they are up to some point of a
session. `inTurn` is the whole protocol, with the state it has come to for each storage: that which
the one object with the storage knows, or that of a buffer which was destroyed or never made. The
other fields say what follows for single calls. -/
structure Disciplined {σ : Type} (s : Session σ) (l : List (Option Storage × Call)) : Prop where
  tagged : ∀ x ∈ l, x.2.isOnBuffer = x.1.isSome
  inTurn : ∀ key, ∃ life, Phase.after key l = some (.ofLife life) ∧
    s.live.filterMap (·.2.stored key) = life.holding
  /-- A mapping follows at once upon the offset that it is made at. -/
  mmap : Follows l
  /-- What is unmapped was mapped by the call for the same buffer before. -/
  munmap : ∀ l₁ l₂ st a length r, l = l₁ ++ (some st, .munmap a length r) :: l₂ →
    length = st.length ∧ ∃ l₀ prot flags offset l₃,
      l₁ = l₀ ++ (some st, .mmap length prot flags offset (.ok (some a))) :: l₃ ∧
        ∀ x ∈ l₃, x.1 ≠ some st
  /-- A buffer is destroyed after it was unmapped, and that is the last call for it. -/
  destroyDumb : ∀ l₁ l₂ st handle r, l = l₁ ++ (some st, .destroyDumb handle r) :: l₂ →
    handle = st.handle ∧ (∀ x ∈ l₂, x.1 ≠ some st) ∧
      ∀ l₀ l₃ length prot flags offset a,
        l₁ = l₀ ++ (some st, .mmap length prot flags offset (.ok (some a))) :: l₃ →
          ∃ r', (some st, .munmap a length r') ∈ l₃
  /-- A buffer that was made has a handle, and it has been destroyed if and only if no object has
  its storage. -/
  createDumb : ∀ st width height bits flags x,
    (some st, .createDumb width height bits flags (.ok x)) ∈ l →
      x.handle = st.handle ∧ st.handle.isNull = false ∧
        ((∃ handle r, (some st, .destroyDumb handle r) ∈ l) ↔
          ¬ ∃ y ∈ s.live, ∃ d, y.2.backing = .owned st d)

section Discipline
variable {s : Session (Connection κ)} {t : List (Event × List Call)}

theorem stored_eq_some {b : BufferObject} {key : Nat} {st : Storage} {m : Option Address} :
    b.stored key = some (.storage st m) ↔
      (∃ d, b.backing = .owned st d) ∧ st.key = key ∧ b.mapping = m := by
  unfold BufferObject.stored
  cases b.backing with
  | owned st' d =>
    by_cases hk : st'.key = key
    · simp only [hk, if_true, Option.some.injEq, Holding.storage.injEq, Backing.owned.injEq]
      constructor
      · rintro ⟨rfl, rfl⟩
        exact ⟨⟨d, rfl, rfl⟩, hk, rfl⟩
      · rintro ⟨⟨_, rfl, _⟩, _, rfl⟩
        exact ⟨rfl, rfl⟩
    · simp only [hk, if_false, Backing.owned.injEq, reduceCtorEq, false_iff, not_and]
      rintro ⟨_, rfl, _⟩ h
      exact absurd h hk
  | borrowed d a => simp

/-- Whether some object has a storage can be told from the state of the protocol. -/
theorem owner_iff {st : Storage} {life : Life}
    (h : s.live.filterMap (·.2.stored st.key) = life.holding) :
    (∃ y ∈ s.live, ∃ d, y.2.backing = .owned st d) ↔ ∃ m, life = Life.inHand st m := by
  constructor
  · rintro ⟨y, hy, d, hd⟩
    have hm : .storage st y.2.mapping ∈ life.holding := by
      rw [← h]
      exact (Multiset.mem_filterMap _ _).mpr ⟨y, hy, stored_eq_some.mpr ⟨⟨d, hd⟩, rfl, rfl⟩⟩
    refine ⟨y.2.mapping, ?_⟩
    obtain ⟨H, hH⟩ := Multiset.exists_cons_of_mem hm
    exact (Life.inHand_of_holding hH).1
  · rintro ⟨m, rfl⟩
    have hm : .storage st m ∈ (Life.inHand st m).holding := by
      cases m <;> exact Multiset.mem_singleton_self _
    rw [← h] at hm
    obtain ⟨y, hy, hst⟩ := (Multiset.mem_filterMap _ _).mp hm
    exact ⟨y, hy, (stored_eq_some.mp hst).1⟩

/-- After a buffer was made it was destroyed, unless somebody has it in hand. -/
theorem destroyed_iff {l : List (Option Storage × Call)} {st : Storage} {width height bits flags x}
    {life : Life} (hl : Phase.after st.key l = some (.ofLife life))
    (hc : (some st, .createDumb width height bits flags (.ok x)) ∈ l) :
    (∃ handle r, (some st, .destroyDumb handle r) ∈ l) ↔ ¬ ∃ m, life = Life.inHand st m := by
  have hconcerns {l : List (Option Storage × Call)} {q : Phase} (hq : Phase.after st.key l = some q)
      (hc : (some st, .createDumb width height bits flags (.ok x)) ∈ l) : q.Concerns st := by
    obtain ⟨l₁, l₂, rfl⟩ := List.append_of_mem hc
    obtain ⟨p, p', _, htakes, hafter⟩ := Phase.takes_of_after hq rfl
    cases htakes with
    | created => exact Phase.Concerns.later (p := .unmapped st) rfl hafter
  constructor
  · rintro ⟨handle, r, hd⟩ ⟨m, rfl⟩
    obtain ⟨l₁, l₂, rfl⟩ := List.append_of_mem hd
    obtain ⟨p, p', _, htakes, hafter⟩ := Phase.takes_of_after hl rfl
    cases htakes with
    | destroyed =>
      have hdestroyed := (Phase.elsewhere_of_destroyed hafter).1
      cases m <;> cases hdestroyed
  · intro hnone
    have hst := hconcerns hl hc
    cases life with
    | absent => exact hst.elim
    | unmapped s =>
      obtain rfl : s = st := hst
      exact absurd ⟨none, rfl⟩ hnone
    | mapped s a =>
      obtain rfl : s = st := hst
      exact absurd ⟨some a, rfl⟩ hnone
    | released =>
      obtain ⟨l₁, st', r, l₂, rfl, helse, hk, hunmapped⟩ := Phase.destroyed_at hl
      have hbefore : (some st, .createDumb width height bits flags (.ok x)) ∈ l₁ := by
        rcases List.mem_append.mp hc with hc | hc
        · exact hc
        · rcases List.mem_cons.mp hc with hc | hc
          · cases hc
          · exact absurd rfl (helse _ hc)
      obtain rfl : st' = st := hconcerns hunmapped hbefore
      exact ⟨_, r, List.mem_append_right _ List.mem_cons_self⟩

/-- A dumb buffer is created for storage that the driver allocates. -/
theorem allocated_of_createDumb {base : List Call} (ht : Transcript base s.world t) {st : Storage}
    {width height bits flags x}
    (hc : (some st, .createDumb width height bits flags (.ok x)) ∈ attributed t) :
    ∃ kind width height format, .allocate kind width height format (.ok st) ∈ s.world.events := by
  obtain ⟨⟨e, calls⟩, he, hc⟩ := List.mem_flatMap.mp hc
  obtain ⟨c, hc, hpair⟩ := List.mem_map.mp hc
  obtain ⟨hst, rfl⟩ := Prod.mk.inj hpair
  have hmem : e ∈ s.world.events := ht.events ▸ List.mem_map.mpr ⟨_, he, rfl⟩
  have hserves : Serves e calls := ht.serves _ he
  cases hserves
  case allocated =>
    obtain rfl := Option.some.inj hst
    exact ⟨_, _, _, _, hmem⟩
  case offset => simp at hc
  case closed | warned | refused => cases hc
  all_goals cases List.mem_singleton.mp hc

/-- Up to every point of a session the kernel was called as it should be. -/
theorem Transcript.disciplined {base : List Call} (ht : Transcript base s.world t)
    (hn : ∀ kind width height format st,
      .allocate kind width height format (.ok st) ∈ s.world.events → st.handle.isNull = false)
    (hs : ∀ key, InTurn key (s.estate.holdings, s.world)) : Disciplined s (attributed t) := by
  have hturn (key : Nat) : ∃ life, Phase.after key (attributed t) = some (.ofLife life) ∧
      s.live.filterMap (·.2.stored key) = life.holding := by
    obtain ⟨life, hlife, hholding, _⟩ := hs key
    rw [Estate.keyed_holdings] at hholding
    rw [show s.world.events = t.map (·.1) from ht.events] at hlife
    exact ⟨life, after_of_life ht.serves hlife, hholding⟩
  refine ⟨?_, hturn, follows_attributed ht.serves, ?_, ?_, ?_⟩
  · intro x hx
    obtain ⟨⟨e, calls⟩, he, hx⟩ := List.mem_flatMap.mp hx
    obtain ⟨c, hc, rfl⟩ := List.mem_map.mp hx
    exact (ht.serves _ he).isOnBuffer hc
  · intro l₁ l₂ st a length r hl
    obtain ⟨life, hlife, _⟩ := hturn st.key
    rw [hl] at hlife
    obtain ⟨p, p', hp, htakes, _⟩ := Phase.takes_of_after hlife rfl
    cases htakes with
    | unmapped =>
      obtain ⟨_, l₀, prot, flags, offset, l₃, rfl, helse⟩ := Phase.mapped_at hp
      exact ⟨rfl, l₀, prot, flags, offset, l₃, rfl, Elsewhere.ne helse⟩
  · intro l₁ l₂ st handle r hl
    obtain ⟨life, hlife, _⟩ := hturn st.key
    rw [hl] at hlife
    obtain ⟨p, p', hp, htakes, hafter⟩ := Phase.takes_of_after hlife rfl
    cases htakes with
    | destroyed =>
      refine ⟨rfl, Elsewhere.ne (Phase.elsewhere_of_destroyed hafter).2, ?_⟩
      rintro l₀ l₃ length prot flags offset a rfl
      obtain ⟨_, q, _, hmaps, hlater⟩ := Phase.takes_of_after hp rfl
      cases hmaps with
      | mapped => exact Phase.munmap_of_mapped hlater nofun
      | notMapped h => exact absurd rfl (h a)
  · intro st width height bits flags x hc
    obtain ⟨life, hlife, hholding⟩ := hturn st.key
    refine ⟨?_, ?_, (destroyed_iff hlife hc).trans (not_congr (owner_iff hholding)).symm⟩
    swap
    · obtain ⟨_, _, _, _, hmem⟩ := allocated_of_createDumb ht hc
      exact hn _ _ _ _ _ hmem
    obtain ⟨l₁, l₂, hl⟩ := List.append_of_mem hc
    rw [hl] at hlife
    obtain ⟨p, p', _, htakes, _⟩ := Phase.takes_of_after hlife rfl
    cases htakes with
    | created hh => exact hh

end Discipline

section Giving
variable {w w' : World (Connection κ)} {x : Error}

/-- The calls that come of the end of an object: two at most, and none if it only borrowed. -/
def teardown (b : BufferObject) (unmapped released : Except Errno Unit) : List Call :=
  match b.backing with
  | .owned st _ =>
    b.mapping.toList.map (.munmap · st.length unmapped) ++ [.destroyDumb st.handle released]
  | .borrowed _ _ => []

/-- The last who lets go of the driver closes the node, and makes no other call. -/
theorem letGo_calls (K : Kernel κ ι) (w : World (Connection κ)) :
    (w.letGo (driver K)).driver.kernel = w.driver.kernel ∧ (w.letGo (driver K)).driver.calls =
      w.driver.calls ++ if w.holders = 1 then [.closeNode] else [] := by
  by_cases h : w.holders = 1
  · rw [World.letGo_of_last _ h, if_pos h]
    exact ⟨rfl, rfl⟩
  · rw [World.letGo_of_others _ h, if_neg h, List.append_nil]
    exact ⟨rfl, rfl⟩

/-- Whatever the kernel answers to one call of the end, the others are made and the descriptor is
closed. The node is closed after them if nobody else holds the driver. -/
theorem destroy_calls (K : Kernel κ ι) {b : BufferObject} {w : World (Connection κ)}
    (hw : b.driverReferences ≤ w.holders) :
    ∃ unmapped released,
      (b.destroy (driver K) w).driver.calls = w.driver.calls ++ teardown b unmapped released ++
        (if w.holders = b.driverReferences then [.closeNode] else []) ∧
      (b.destroy (driver K) w).descriptors = w.descriptors.diff b.descriptor?.toList := by
  have hdescriptors : (b.destroy (driver K) w).descriptors =
      w.descriptors.diff b.descriptor?.toList := by
    obtain ⟨_, _, _, h, -⟩ := b.destroy_logged (driver K) w
    rw [h]
  have hwarn : ∃ w₁, (if b.locked then w.warn (.destroyedLocked b.id) else w) = w₁ ∧
      w₁.driver = w.driver ∧ w₁.holders = w.holders := by
    split <;> exact ⟨_, rfl, rfl, rfl⟩
  obtain ⟨w₁, hw₁, hdriver, hholders⟩ := hwarn
  rw [BufferObject.driverReferences] at hw
  cases hb : b.backing with
  | owned st d =>
    rw [hb, ← hholders] at hw
    replace hw : 2 ≤ w₁.holders := hw
    have hothers : w₁.letGo (driver K) = { w₁ with holders := w₁.holders - 1 } :=
      World.letGo_of_others _ (by omega)
    have hlast : w₁.holders - 1 = 1 ↔ w.holders = 2 := by omega
    cases hm : b.mapping with
    | none =>
      refine ⟨.ok (), (K.destroyDumb st.handle w.driver.kernel).1, ?_, hdescriptors⟩
      simp only [BufferObject.destroy, BufferObject.driverReferences, teardown, hb, hm, hw₁,
        hothers, letGo_calls, World.release_logged, World.close, World.record, hdriver, hlast]
      rfl
    | some a =>
      refine ⟨(K.munmap a st.length w.driver.kernel).1, (K.destroyDumb st.handle
        (K.munmap a st.length w.driver.kernel).2).1, ?_, hdescriptors⟩
      simp only [BufferObject.destroy, BufferObject.driverReferences, teardown, hb, hm, hw₁,
        hothers, letGo_calls, World.release_logged, World.unmap_logged, World.close, World.record,
        hdriver, hlast]
      simp [driver, Connection.ask]
  | borrowed d a =>
    refine ⟨.ok (), .ok (), ?_, hdescriptors⟩
    rw [(b.destroy_borrowed hb _ _).1, (letGo_calls K w).2, teardown, BufferObject.driverReferences,
      hb, List.append_nil]

theorem importDescriptor_calls {d : Dmabuf} {r : Except IoError Handle}
    (h : w.importDescriptor (driver K) d = (r, w')) : ∃ r', r = r'.mapError .os ∧
      w'.driver.calls = w.driver.calls ++ [.primeToHandle d r'] ∧
      w'.descriptors = w.descriptors := by
  obtain ⟨rfl, rfl⟩ := Prod.mk.inj h
  exact ⟨_, rfl, rfl, rfl⟩

/-- The calls of an import up to the conversion that failed, which is the last one. -/
structure Aborted (ds : List Dmabuf) (w : World (Connection κ)) (c : IoError)
    (w' : World (Connection κ)) (converted : List (Dmabuf × Handle)) (d : Dmabuf) (e : Errno) :
    Prop where
  inOrder : converted.map Prod.fst ++ [d] <+: ds
  cause : c = .os e
  calls : w'.driver.calls = w.driver.calls ++
    (converted.map fun p => .primeToHandle p.1 (.ok p.2)) ++ [.primeToHandle d (.error e)]
  descriptors : w'.descriptors = w.descriptors

theorem convertPlanes_aborted {l : List (Dmabuf × UInt32)} {c : IoError} {planes : List Plane}
    (h : BufferObject.convertPlanes (driver K) l w = (.error (c, planes), w')) :
    ∃ converted d e, Aborted (l.map Prod.fst) w c w' converted d e := by
  induction l generalizing w planes with
  | nil => cases h
  | cons p l ih =>
    obtain ⟨d, stride⟩ := p
    rw [BufferObject.convertPlanes] at h
    split at h
    · next c' w₁ hq =>
      obtain ⟨⟨rfl, rfl⟩, rfl⟩ := h
      obtain ⟨r, hr, hcalls, hd⟩ := importDescriptor_calls hq
      cases r with
      | ok handle => cases hr
      | error e =>
        obtain rfl := Except.error.inj hr
        exact ⟨[], d, e, ⟨l.map Prod.fst, rfl⟩, rfl, by simp [hcalls], hd⟩
    · next handle w₁ hq =>
      split at h
      · cases h
      · next c' planes' w₂ hrest =>
        obtain ⟨⟨rfl, rfl⟩, rfl⟩ := h
        obtain ⟨r, hr, hcalls, hd⟩ := importDescriptor_calls hq
        cases r with
        | error e => cases hr
        | ok handle' =>
          obtain rfl := Except.ok.inj hr
          obtain ⟨converted, d', e, hab⟩ := ih hrest
          refine ⟨(d, handle) :: converted, d', e, ?_, hab.cause, ?_, hab.descriptors.trans hd⟩
          · exact List.cons_prefix_cons.mpr ⟨rfl, hab.inOrder⟩
          · rw [hab.calls, hcalls]
            simp

/-- An import that fails was at fault itself, and nothing is done, or it stops at the descriptor
that could not be converted. Nothing is done about the handles of those before it. -/
theorem importFrom_aborted {source : ImportSource Dmabuf}
    (h : BufferObject.importFrom (driver K) source w = (.error x, w')) :
    (x.isInvalidInput = true ∧ w' = w) ∨ ∃ step c converted d e,
      x = .allocation step c ∧ Aborted source.descriptors w c w' converted d e := by
  cases source with
  | external resource =>
    simp only [BufferObject.importFrom, BufferObject.importExternal] at h
    split at h
    · obtain ⟨rfl, rfl⟩ := h
      exact .inl ⟨rfl, rfl⟩
    · split at h
      · obtain ⟨rfl, rfl⟩ := h
        exact .inl ⟨rfl, rfl⟩
      · cases h
  | descriptor d width height stride format =>
    simp only [BufferObject.importFrom] at h
    split at h
    · next c w₁ hq =>
      obtain ⟨rfl, rfl⟩ := h
      obtain ⟨r, hr, hcalls, hd⟩ := importDescriptor_calls hq
      cases r with
      | ok handle => cases hr
      | error e =>
        obtain rfl := Except.error.inj hr
        exact .inr ⟨_, _, [], d, e, rfl, List.prefix_rfl, rfl, by simp [hcalls], hd⟩
    · cases h
  | planes ds strides width height format modifier =>
    simp only [BufferObject.importFrom, BufferObject.importPlanes] at h
    split at h
    · obtain ⟨rfl, rfl⟩ := h
      exact .inl ⟨rfl, rfl⟩
    split at h
    · obtain ⟨rfl, rfl⟩ := h
      exact .inl ⟨rfl, rfl⟩
    split at h
    · obtain ⟨rfl, rfl⟩ := h
      exact .inl ⟨rfl, rfl⟩
    next hlength =>
    split at h
    · cases h
    · next c planes w₁ hq =>
      obtain ⟨rfl, rfl⟩ := h
      obtain ⟨converted, d, e, hab⟩ := convertPlanes_aborted hq
      rw [List.map_fst_zip (by rw [not_not.mp hlength])] at hab
      refine .inr ⟨_, c, converted, d, e, rfl, hab.inOrder, hab.cause, ?_, ?_⟩
      · rw [← hab.calls]
        split <;> rfl
      · rw [← hab.descriptors]
        split <;> rfl

end Giving

/-- Why a buffer cannot be mapped: the kernel's error, or the null address for an answer. -/
def Call.mappingError? : Call → Option IoError
  | .mapDumb _ (.error e) | .mmap _ _ _ _ (.error e) => some (.os e)
  | .mmap _ _ _ _ (.ok none) => some .invalidData
  | _ => none

/-- A buffer that cannot be mapped is storage that the driver fails to map. -/
theorem Serves.map_failed {event : Event} {l : List Call} (h : Serves event l) {st : Storage}
    (hst : event.storage? = some st) {c : Call} (hc : c ∈ l) {e : IoError}
    (he : c.mappingError? = some e) : event = .map st (.error e) := by
  cases h
  case noOffset =>
    obtain rfl := List.mem_singleton.mp hc
    obtain rfl := Option.some.inj hst
    obtain rfl := Option.some.inj he
    rfl
  case offset st offset r r' hr =>
    obtain rfl := Option.some.inj hst
    rcases List.mem_pair.mp hc with rfl | rfl
    · cases he
    · rcases r with e' | _ | a
      · obtain rfl := Option.some.inj he
        rw [hr]
        rfl
      · obtain rfl := Option.some.inj he
        rw [hr]
        rfl
      · cases he
  case closed | warned | refused => cases hc
  all_goals
    rw [List.mem_singleton.mp hc] at he
    cases he

/-- The transcript of a run, and what an operation after it adds. -/
theorem step_transcript (K : Kernel κ ι) {c : Connection κ} (hc : c.nodeOpen = true)
    (ops : List (Op ι)) (op : Op ι) :
    let s := ((Session.start c).run (driver K) ops).2
    ∃ t t', Transcript c.calls s.world t ∧
      Transcript c.calls (s.step (driver K) op).2.world (t ++ t') ∧
      (s.turn (driver K) op).events = t'.map (·.1) := by
  intro s
  obtain ⟨hopen, t, ht⟩ := run_transcript K hc ops
  obtain ⟨-, t', ht'⟩ := step_continues (K := K)
    (Session.run_counted (Session.start_counted c) ops) (.start hopen ht) op
  refine ⟨t, t', ht, ht', Session.turn_events ?_⟩
  rw [ht'.events, List.map_append, ht.events]

/-- Of a buffer that could not be mapped in an operation the client is told, and whoever has it has
it unmapped. -/
theorem Transcript.mapping_failed {base : List Call} {s : Session (Connection κ)} {op : Op ι}
    {t t' : List (Event × List Call)} (hs : s.Apart)
    (ht' : Transcript base (s.step (driver K) op).2.world (t ++ t'))
    (hevents : (s.turn (driver K) op).events = t'.map (·.1)) {st : Storage} {c : Call} {e : IoError}
    (hc : (some st, c) ∈ attributed t') (he : c.mappingError? = some e) :
    (s.step (driver K) op).1.answer = .failed (.allocation .mapStorage e) ∧
      ∀ u b d, (s.step (driver K) op).2.object? u = some b → b.backing = .owned st d →
        b.mapping = none := by
  obtain ⟨⟨event, l⟩, hevent, hc⟩ := List.mem_flatMap.mp hc
  obtain ⟨c', hc', hpair⟩ := List.mem_map.mp hc
  obtain ⟨hst, rfl⟩ := Prod.mk.inj hpair
  have hserves : Serves event l := ht'.serves (event, l) (List.mem_append_right _ hevent)
  have hmap : event = .map st (.error e) := hserves.map_failed hst hc' he
  refine Session.failed_mapping hs ?_
  rw [hevents, ← hmap]
  exact List.mem_map.mpr ⟨(event, l), hevent, rfl⟩

/-- The kernel gives every dumb buffer a handle. -/
def Kernel.NamesBuffers (K : Kernel κ ι) : Prop :=
  ∀ width height bits flags kernel x,
    (K.createDumb width height bits flags kernel).1 = .ok x → x.handle.isNull = false

theorem driver_namesBuffers (hK : K.NamesBuffers) : (driver K).NamesBuffers := by
  intro key kind width height format c a h
  have h : (allocate K kind width height c).1 = .ok a := h
  simp only [allocate, Connection.ask] at h
  cases hr : (K.createDumb (kind.dimensions width height).1 (kind.dimensions width height).2
    bitsPerPixel 0 c.kernel).1 with
  | error e => simp [hr, Except.mapError] at h
  | ok x =>
    simp only [hr, Except.mapError, Except.ok.injEq] at h
    rw [← h]
    exact hK _ _ _ _ _ _ hr

/-- In sessions on a kernel that gives every dumb buffer a handle, all storage has one. -/
theorem storage_named (hK : K.NamesBuffers) (c : Connection κ) (ops : List (Op ι)) :
    ∀ kind width height format st, .allocate kind width height format (.ok st) ∈
      ((Session.start c).run (driver K) ops).2.world.events → st.handle.isNull = false :=
  fun _ _ _ _ _ h => (Session.run_recorded (driver K) c ops).log.named (driver_namesBuffers hK) h

/-- For every kernel that gives dumb buffers a handle, and every session on an open node, the calls
to the kernel up to any point can be told apart by the storage that they are made for, such that
each buffer is created, mapped at the offset that was asked for just before, unmapped there and
destroyed in turn. When a buffer cannot be mapped the client is told the kernel's error, and whoever
has it then has it unmapped. The end of an object makes its calls whatever the kernel answers to any
of them, and none for what was imported; only the node is closed after it if nothing else is left.
An import converts its descriptors, and when it is aborted the conversion that failed is its last
call. -/
theorem kernel_discipline (hK : K.NamesBuffers) (k : κ) (calls : List Call) (ops : List (Op ι))
    (op : Op ι) :
    let s := ((Session.start ⟨k, true, calls⟩).run (driver K) ops).2
    let s' := (s.step (driver K) op).2
    (∃ before new,
      s.world.driver.calls =
        calls ++ before.map (·.2) ++ (if s.world.driver.nodeOpen then [] else [.closeNode]) ∧
      s'.world.driver.calls =
        calls ++ (before ++ new).map (·.2) ++
          (if s'.world.driver.nodeOpen then [] else [.closeNode]) ∧
      Disciplined s before ∧ Disciplined s' (before ++ new) ∧
      ∀ st c e, (some st, c) ∈ new → c.mappingError? = some e →
        (s.step (driver K) op).1.answer = .failed (.allocation .mapStorage e) ∧
          ∀ t b d, s'.object? t = some b → b.backing = .owned st d → b.mapping = none) ∧
    (∀ t b, s.object? t = some b → b.driverReferences ≤ s.world.holders) ∧
    (∀ b w, b.driverReferences ≤ w.holders → ∃ unmapped released,
      (b.destroy (driver K) w).driver.calls = w.driver.calls ++ teardown b unmapped released ++
        (if w.holders = b.driverReferences then [.closeNode] else []) ∧
      (b.destroy (driver K) w).descriptors = w.descriptors.diff b.descriptor?.toList) ∧
    (∀ source w b w', BufferObject.importFrom (driver K) source w = (.ok b, w') → ∀ m r v w₂,
      let w₃ := BufferObject.destroy { b with mapping := m, references := r, locked := v }
        (driver K) w₂
      w₃.driver.kernel = w₂.driver.kernel ∧ w₃.driver.calls =
        w₂.driver.calls ++ if w₂.holders = 1 then [.closeNode] else []) ∧
    ∀ source w x w', BufferObject.importFrom (driver K) source w = (.error x, w') →
      (x.isInvalidInput = true ∧ w' = w) ∨ ∃ step c converted d e,
        x = .allocation step c ∧ Aborted source.descriptors w c w' converted d e := by
  intro s s'
  have hcounted : s.Counted := Session.run_counted (Session.start_counted _) ops
  refine ⟨?_, fun t b hb => (Nat.le_add_left ..).trans (hcounted.found hb),
    fun _ _ => destroy_calls K, fun source w b w' h m r v w₂ => ?_,
    fun source w x w' h => importFrom_aborted h⟩
  · have hturn (ops : List (Op ι)) (key : Nat) :
        InTurn key (((Session.start ⟨k, true, calls⟩).run (driver K) ops).2.estate.holdings,
          ((Session.start ⟨k, true, calls⟩).run (driver K) ops).2.world) :=
      Session.inTurn_run key (driver K) ⟨k, true, calls⟩ ops
    obtain ⟨t, t', ht, ht', hevents⟩ := step_transcript K (c := ⟨k, true, calls⟩) rfl ops op
    have hs' : s' = ((Session.start ⟨k, true, calls⟩).run (driver K) (ops ++ [op])).2 :=
      (Session.run_concat (D := driver K) (.start ⟨k, true, calls⟩) ops op).symm
    have hturn' (key : Nat) : InTurn key (s'.estate.holdings, s'.world) :=
      hs' ▸ hturn (ops ++ [op]) key
    have hnamed' := hs' ▸ storage_named hK ⟨k, true, calls⟩ (ops ++ [op])
    refine ⟨attributed t, attributed t', ?_, ?_,
      ht.disciplined (storage_named hK _ ops) (hturn ops), ?_, ?_⟩
    · rw [attributed_calls]
      exact ht.calls
    · rw [← attributed_append, attributed_calls]
      exact ht'.calls
    · rw [← attributed_append]
      exact ht'.disciplined hnamed' hturn'
    · intro st c e hc he
      exact ht'.mapping_failed ((Session.apart_start _).run ops) hevents hc he
  · have hb : b.backing = .borrowed none none := BufferObject.importFrom_backing h
    intro w₃
    have hdriver : w₃.driver = (w₂.letGo (driver K)).driver :=
      (BufferObject.destroy_borrowed hb (driver K) w₂ (b := { b with
        mapping := m, references := r, locked := v })).1
    rw [hdriver]
    exact letGo_calls K w₂

/-- A kernel that grants everything, and always by the same answer. -/
def Kernel.steady : Kernel Unit Unit where
  capability k := (.ok 1, k)
  version k := (.ok "steady", k)
  createDumb width height _ _ k := (.ok ⟨⟨1⟩, 256, width, height⟩, k)
  mapDumb _ k := (.ok 0, k)
  mmap _ _ _ _ k := (.ok (some (.mapped 0)), k)
  munmap _ _ k := (.ok (), k)
  destroyDumb _ k := (.ok (), k)
  primeToHandle _ k := (.ok ⟨1⟩, k)
  primeFromHandle _ _ k := (.ok ⟨0⟩, k)
  duplicate _ k := (.ok (), k)
  receive k := (⟨0⟩, k)
  outside _ k := k
  shows
    | .mapped n, i, _ => .storage n i
    | .client key, i, _ => .client key i

theorem steady_namesBuffers : Kernel.steady.NamesBuffers := by
  rintro _ _ _ _ _ _ ⟨⟩
  rfl

/-- On it a buffer is created, mapped for drawing and destroyed, by six calls in turn. -/
theorem steady_kernel_disciplined :
    let s := ((Session.start ⟨(), true, []⟩).run (driver .steady)
      [.create "a" 64 64 PixelFormat.xrgb8888.code .write]).2
    let s' := (s.step (driver .steady) (.destroy "a")).2
    ∃ before new, Disciplined s before ∧ Disciplined s' (before ++ new) ∧
      (before ++ new).map (·.2) = [.createDumb 64 64 32 0 (.ok ⟨⟨1⟩, 256, 64, 64⟩),
        .primeFromHandle ⟨1⟩ .closeOnExec (.ok ⟨0⟩), .mapDumb ⟨1⟩ (.ok 0),
        .mmap 16384 3 1 0 (.ok (some (.mapped 0))), .munmap (.mapped 0) 16384 (.ok ()),
        .destroyDumb ⟨1⟩ (.ok ())] := by
  intro s s'
  obtain ⟨⟨before, new, -, hcalls, hbefore, hafter, -⟩, -⟩ := kernel_discipline steady_namesBuffers
    () [] [.create "a" 64 64 PixelFormat.xrgb8888.code .write] (.destroy "a")
  refine ⟨before, new, hbefore, hafter, ?_⟩
  rw [show s'.world.driver.nodeOpen = true from rfl, if_pos rfl, List.nil_append,
    List.append_nil] at hcalls
  exact hcalls.symm

end DisplayBuffers.Dumb
