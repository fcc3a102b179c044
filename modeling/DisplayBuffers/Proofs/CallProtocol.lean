import DisplayBuffers.Proofs.StorageProtocol
import DisplayBuffers.Proofs.Transcript

/-! The kernel's protocol of dumb buffers. Every call about a dumb buffer is made for some storage,
and the calls for one storage form a word of an automaton, which is finer than that of the driver's
protocol: between an offset and the mapping at it there is a state of its own. -/
namespace DisplayBuffers

/-- The storage that an event is about, once there is one. -/
def Event.storage? : Event → Option Storage
  | .allocate _ _ _ _ (.ok st) => some st
  | .map st _ | .unmap st _ _ | .release st _ => some st
  | _ => none

theorem Event.key?_eq_storage? (e : Event) : e.key? = e.storage?.map (·.key) := by
  cases e with
  | allocate kind width height format r => cases r <;> rfl
  | _ => rfl

namespace Dumb

/-- Whether a call is about a dumb buffer that there is. -/
def Call.isOnBuffer : Call → Bool
  | .createDumb _ _ _ _ (.ok _) | .mapDumb _ _ | .mmap _ _ _ _ _ | .munmap _ _ _
  | .destroyDumb _ _ => true
  | _ => false

/-- What the calls for one storage have come to. -/
inductive Phase where
  | absent
  | unmapped (st : Storage)
  /-- The kernel told the offset at which the buffer can be mapped. -/
  | offered (st : Storage) (offset : Nat)
  | mapped (st : Storage) (a : Address)
  | destroyed
  deriving DecidableEq

namespace Phase

/-- One more call, made for some storage. It is out of turn unless it is for the same buffer, with
the buffer's handle and length, the offset told just before and the address of the mapping. What
undoes something counts as done whatever the kernel answers, and a mapping at the null address
counts as none. -/
def next : Phase → Storage → Call → Option Phase
  | .absent, st, .createDumb _ height _ _ (.ok x) =>
    if x.handle = st.handle ∧ rowBytes x.pitch height = st.length then some (.unmapped st) else none
  | .unmapped st, st', .mapDumb handle r =>
    if st' = st ∧ handle = st.handle then
      match r with
      | .ok offset => some (.offered st offset)
      | .error _ => some (.unmapped st)
    else none
  | .offered st offset, st', .mmap length _ _ offset' r =>
    if st' = st ∧ length = st.length ∧ offset' = offset then
      match r with
      | .ok (some a) => some (.mapped st a)
      | .ok none | .error _ => some (.unmapped st)
    else none
  | .mapped st a, st', .munmap a' length _ =>
    if st' = st ∧ a' = a ∧ length = st.length then some (.unmapped st) else none
  | .unmapped st, st', .destroyDumb handle _ =>
    if st' = st ∧ handle = st.handle then some .destroyed else none
  | _, _, _ => none

/-- The calls that are in turn. -/
inductive Takes : Phase → Storage → Call → Phase → Prop
  | created {st width height bits flags x} (hh : x.handle = st.handle)
      (hl : rowBytes x.pitch height = st.length) :
      Takes .absent st (.createDumb width height bits flags (.ok x)) (.unmapped st)
  | offered {st offset} :
      Takes (.unmapped st) st (.mapDumb st.handle (.ok offset)) (.offered st offset)
  | notOffered {st e} : Takes (.unmapped st) st (.mapDumb st.handle (.error e)) (.unmapped st)
  | mapped {st prot flags offset a} :
      Takes (.offered st offset) st (.mmap st.length prot flags offset (.ok (some a)))
        (.mapped st a)
  | notMapped {st prot flags offset r} (h : ∀ a, r ≠ .ok (some a)) :
      Takes (.offered st offset) st (.mmap st.length prot flags offset r) (.unmapped st)
  | unmapped {st a r} : Takes (.mapped st a) st (.munmap a st.length r) (.unmapped st)
  | destroyed {st r} : Takes (.unmapped st) st (.destroyDumb st.handle r) .destroyed

theorem takes_of_next {p q : Phase} {st : Storage} {c : Call} (h : p.next st c = some q) :
    p.Takes st c q := by
  unfold next at h
  split at h
  · split at h
    · next hx =>
      obtain rfl := Option.some.inj h
      exact .created hx.1 hx.2
    · cases h
  · next st st' handle r =>
    split at h
    · next hx =>
      obtain ⟨rfl, rfl⟩ := hx
      cases r <;> obtain rfl := Option.some.inj h
      · exact .notOffered
      · exact .offered
    · cases h
  · next st offset st' length _ _ offset' r =>
    split at h
    · next hx =>
      obtain ⟨rfl, rfl, rfl⟩ := hx
      rcases r with e | _ | a <;> obtain rfl := Option.some.inj h
      · exact .notMapped nofun
      · exact .notMapped nofun
      · exact .mapped
    · cases h
  · split at h
    · next hx =>
      obtain ⟨rfl, rfl, rfl⟩ := hx
      obtain rfl := Option.some.inj h
      exact .unmapped
    · cases h
  · split at h
    · next hx =>
      obtain ⟨rfl, rfl⟩ := hx
      obtain rfl := Option.some.inj h
      exact .destroyed
    · cases h
  · cases h

/-- One more call of all, which may be for other storage or for none. -/
def advance (key : Nat) (p : Phase) (x : Option Storage × Call) : Option Phase :=
  match x.1 with
  | some st => if st.key = key then p.next st x.2 else some p
  | none => some p

/-- The calls for the storage with a key, among all calls from the first one on. -/
def after (key : Nat) (l : List (Option Storage × Call)) : Option Phase :=
  l.foldlM (advance key) .absent

theorem after_append (key : Nat) (l l' : List (Option Storage × Call)) :
    after key (l ++ l') = (after key l).bind fun p => l'.foldlM (advance key) p :=
  List.foldlM_append

theorem after_concat (key : Nat) (l : List (Option Storage × Call)) (x : Option Storage × Call) :
    after key (l ++ [x]) = (after key l).bind (advance key · x) := by
  rw [after_append]
  congr 1
  funext p
  exact bind_pure _

/-- Calls are for other storage if none of them is for that with a key. -/
def Elsewhere (key : Nat) (l : List (Option Storage × Call)) : Prop :=
  ∀ x ∈ l, x.1.map (·.key) ≠ some key

theorem advance_of_eq {key : Nat} {st : Storage} (h : st.key = key) (c : Call) (p : Phase) :
    p.advance key (some st, c) = p.next st c := if_pos h

theorem advance_of_ne {key : Nat} {x : Option Storage × Call}
    (h : x.1.map (·.key) ≠ some key) (p : Phase) : p.advance key x = some p := by
  obtain ⟨_ | st, c⟩ := x
  · rfl
  · exact if_neg fun hk => h (congrArg some hk)

/-- A call is in turn among those for the storage with a key, or it is not one of them. -/
theorem advance_cases {key : Nat} {x : Option Storage × Call} {p q : Phase}
    (h : p.advance key x = some q) :
    (∃ st c, x = (some st, c) ∧ st.key = key ∧ p.Takes st c q) ∨
      x.1.map (·.key) ≠ some key ∧ q = p := by
  by_cases hx : x.1.map (·.key) = some key
  · obtain ⟨st, hst, hk⟩ := Option.map_eq_some_iff.mp hx
    obtain ⟨o, c⟩ := x
    obtain rfl : o = some st := hst
    rw [advance_of_eq hk] at h
    exact .inl ⟨st, c, rfl, hk, takes_of_next h⟩
  · rw [advance_of_ne hx] at h
    exact .inr ⟨hx, (Option.some.inj h).symm⟩

theorem Elsewhere.concat {key : Nat} {l : List (Option Storage × Call)} (h : Elsewhere key l)
    {x : Option Storage × Call} (hx : x.1.map (·.key) ≠ some key) : Elsewhere key (l ++ [x]) := by
  intro y hy
  rcases List.mem_append.mp hy with hy | hy
  · exact h y hy
  · obtain rfl := List.mem_singleton.mp hy
    exact hx

theorem foldlM_elsewhere {key : Nat} {l : List (Option Storage × Call)} (h : Elsewhere key l)
    (p : Phase) : l.foldlM (advance key) p = some p := by
  induction l with
  | nil => rfl
  | cons x l ih =>
    rw [List.foldlM_cons, advance_of_ne (h x List.mem_cons_self)]
    exact ih fun y hy => h y (List.mem_cons_of_mem _ hy)

/-- Each call for the storage is in turn after those before it. -/
theorem takes_of_after {key : Nat} {l₁ l₂ : List (Option Storage × Call)} {st : Storage} {c : Call}
    {q : Phase} (h : after key (l₁ ++ (some st, c) :: l₂) = some q) (hk : st.key = key) :
    ∃ p p', after key l₁ = some p ∧ p.Takes st c p' ∧ l₂.foldlM (advance key) p' = some q := by
  rw [after_append] at h
  obtain ⟨p, hp, h⟩ := Option.bind_eq_some_iff.mp h
  rw [List.foldlM_cons] at h
  obtain ⟨p', hp', h⟩ := Option.bind_eq_some_iff.mp h
  rw [advance_of_eq hk] at hp'
  exact ⟨p, p', hp, takes_of_next hp', h⟩

/-- Storage that is mapped was mapped by the latest call for it, in its full length. -/
theorem mapped_at {key : Nat} {l : List (Option Storage × Call)} {st : Storage} {a : Address}
    (h : after key l = some (.mapped st a)) : st.key = key ∧ ∃ l₀ prot flags offset l₁,
      l = l₀ ++ (some st, .mmap st.length prot flags offset (.ok (some a))) :: l₁ ∧
        Elsewhere key l₁ := by
  induction l using List.reverseRecOn with
  | nil => cases h
  | append_singleton l x ih =>
    rw [after_concat] at h
    obtain ⟨p, hp, h⟩ := Option.bind_eq_some_iff.mp h
    rcases advance_cases h with ⟨st', c, rfl, hk, htakes⟩ | ⟨hx, rfl⟩
    · cases htakes with
      | mapped => exact ⟨hk, l, _, _, _, [], rfl, fun y hy => (List.not_mem_nil hy).elim⟩
    · obtain ⟨hk, l₀, prot, flags, offset, l₁, rfl, hl⟩ := ih hp
      exact ⟨hk, l₀, prot, flags, offset, l₁ ++ [x], by simp, hl.concat hx⟩

/-- After its destruction there are no calls for a buffer. -/
theorem elsewhere_of_destroyed {key : Nat} {l : List (Option Storage × Call)} {q : Phase}
    (h : l.foldlM (advance key) .destroyed = some q) : q = .destroyed ∧ Elsewhere key l := by
  induction l with
  | nil => exact ⟨(Option.some.inj h).symm, fun y hy => (List.not_mem_nil hy).elim⟩
  | cons x l ih =>
    rw [List.foldlM_cons] at h
    obtain ⟨p, hp, h⟩ := Option.bind_eq_some_iff.mp h
    rcases advance_cases hp with ⟨st, c, rfl, _, htakes⟩ | ⟨hx, rfl⟩
    · cases htakes
    · obtain ⟨hq, hl⟩ := ih h
      refine ⟨hq, fun y hy => ?_⟩
      rcases List.mem_cons.mp hy with rfl | hy
      · exact hx
      · exact hl y hy

/-- Where the driver's protocol stands, no offset is pending. -/
def ofLife : Life → Phase
  | .absent => .absent
  | .unmapped st => .unmapped st
  | .mapped st a => .mapped st a
  | .released => .destroyed

end Phase

/-- All calls of a transcript, each with the storage it is made for. -/
def attributed (t : List (Event × List Call)) : List (Option Storage × Call) :=
  t.flatMap fun x => x.2.map (x.1.storage?, ·)

theorem attributed_append (t t' : List (Event × List Call)) :
    attributed (t ++ t') = attributed t ++ attributed t' := List.flatMap_append

theorem attributed_calls (t : List (Event × List Call)) :
    (attributed t).map (·.2) = t.flatMap (·.2) := by
  rw [attributed, List.map_flatMap]
  congr 1
  funext x
  rw [List.map_map]
  exact List.map_id _

section
variable {e : Event} {l : List Call}

/-- Calls about dumb buffers, and no others, are made for storage. -/
theorem Serves.isOnBuffer (h : Serves e l) {c : Call} (hc : c ∈ l) :
    c.isOnBuffer = e.storage?.isSome := by
  cases h
  case offset =>
    rcases List.mem_pair.mp hc with rfl | rfl <;> rfl
  case closed | warned | refused => cases hc
  all_goals
    rw [List.mem_singleton.mp hc]
    rfl

/-- The calls that serve an event of the driver's protocol are in turn with the kernel. -/
theorem Serves.advances (h : Serves e l) {st : Storage} (he : e.storage? = some st)
    {life life' : Life} (hl : life.next e = some life') :
    (l.map (some st, ·)).foldlM (Phase.advance st.key) (.ofLife life) = some (.ofLife life') := by
  cases h with
  | allocated hst =>
    obtain rfl := Option.some.inj he
    cases life with
    | absent =>
      obtain rfl := Option.some.inj hl
      simp [Phase.advance, Phase.next, Phase.ofLife, hst]
    | _ => cases hl
  | @noOffset st' e =>
    obtain rfl := Option.some.inj he
    cases life with
    | unmapped s =>
      simp only [Life.next, Option.ite_none_right_eq_some, Option.some.injEq] at hl
      obtain ⟨rfl, rfl⟩ := hl
      simp [Phase.advance, Phase.next, Phase.ofLife]
    | _ => cases hl
  | @offset st' offset r r' hr =>
    obtain rfl := Option.some.inj he
    cases life with
    | unmapped s =>
      subst hr
      rcases r with e | _ | a <;> simp only [placed, Except.mapError, Life.next,
        Option.ite_none_right_eq_some, Option.some.injEq] at hl <;> obtain ⟨rfl, rfl⟩ := hl <;>
        simp [Phase.advance, Phase.next, Phase.ofLife]
    | _ => cases hl
  | @unmapped st' a r r' hr =>
    obtain rfl := Option.some.inj he
    cases life with
    | mapped s b =>
      simp only [Life.next, Option.ite_none_right_eq_some, Option.some.injEq] at hl
      obtain ⟨⟨rfl, rfl⟩, rfl⟩ := hl
      simp [Phase.advance, Phase.next, Phase.ofLife]
    | _ => cases hl
  | @released st' r r' hr =>
    obtain rfl := Option.some.inj he
    cases life with
    | unmapped s =>
      simp only [Life.next, Option.ite_none_right_eq_some, Option.some.injEq] at hl
      obtain ⟨rfl, rfl⟩ := hl
      simp [Phase.advance, Phase.next, Phase.ofLife]
    | _ => cases hl
  | _ => cases he

end

/-- What is in turn with the driver is in turn with the kernel. -/
theorem after_of_life {key : Nat} {t : List (Event × List Call)} (ht : ∀ x ∈ t, Serves x.1 x.2)
    {life : Life} (h : Life.after key (t.map (·.1)) = some life) :
    Phase.after key (attributed t) = some (.ofLife life) := by
  induction t using List.reverseRecOn generalizing life with
  | nil =>
    obtain rfl := Option.some.inj h
    rfl
  | append_singleton t x ih =>
    obtain ⟨e, l⟩ := x
    have ht' : ∀ y ∈ t, Serves y.1 y.2 := fun y hy => ht y (List.mem_append_left _ hy)
    have hx : Serves e l := ht (e, l) (List.mem_append_right _ List.mem_cons_self)
    have hone : attributed [(e, l)] = l.map (e.storage?, ·) := List.append_nil _
    rw [List.map_append, List.map_singleton] at h
    rw [attributed_append, hone, Phase.after_append]
    by_cases hk : e.key? = some key
    · rw [Life.after_append_of_eq hk] at h
      obtain ⟨life₀, h₀, hnext⟩ := Option.bind_eq_some_iff.mp h
      rw [ih ht' h₀]
      obtain ⟨st, hst, rfl⟩ := Option.map_eq_some_iff.mp (e.key?_eq_storage?.symm.trans hk)
      rw [hst]
      exact hx.advances hst hnext
    · rw [Life.after_append_of_ne hk] at h
      rw [ih ht' h]
      refine Phase.foldlM_elsewhere ?_ _
      intro y hy
      obtain ⟨c, _, rfl⟩ := List.mem_map.mp hy
      rwa [← e.key?_eq_storage?]

/-- A mapping follows at once upon the offset that it is made at. -/
def Follows (l : List (Option Storage × Call)) : Prop :=
  ∀ l₁ l₂ o length prot flags offset r, l = l₁ ++ (o, .mmap length prot flags offset r) :: l₂ →
    ∃ l₀ st, o = some st ∧ length = st.length ∧
      l₁ = l₀ ++ [(some st, .mapDumb st.handle (.ok offset))]

theorem Follows.append {l l' : List (Option Storage × Call)} (h : Follows l) (h' : Follows l') :
    Follows (l ++ l') := by
  intro l₁ l₂ o length prot flags offset r he
  rcases List.append_eq_append_iff.mp he with ⟨m, rfl, hm⟩ | ⟨m, hl, hm⟩
  · obtain ⟨l₀, st, ho, hlen, rfl⟩ := h' m l₂ o length prot flags offset r hm
    exact ⟨l ++ l₀, st, ho, hlen, (List.append_assoc _ _ _).symm⟩
  · cases m with
    | nil =>
      obtain ⟨l₀, st, _, _, h0⟩ := h' [] l₂ o length prot flags offset r hm.symm
      exact absurd h0.symm (by simp)
    | cons y m =>
      obtain ⟨rfl, rfl⟩ := List.cons.inj hm
      exact h l₁ m o length prot flags offset r hl

theorem Serves.follows {e : Event} {l : List Call} (h : Serves e l) :
    Follows (l.map (e.storage?, ·)) := by
  intro l₁ l₂ o length prot flags offset r he
  cases h with
  | @offset st offset' r₀ r' hr =>
    cases l₁ with
    | nil => cases he
    | cons y l₁ =>
      obtain ⟨rfl, he⟩ := List.cons.inj he
      cases l₁ with
      | nil =>
        cases he
        exact ⟨[], st, rfl, rfl, rfl⟩
      | cons z l₁ => simp at he
  | _ =>
    cases l₁ with
    | nil => cases he
    | cons y l₁ => simp at he

theorem follows_attributed {t : List (Event × List Call)} (ht : ∀ x ∈ t, Serves x.1 x.2) :
    Follows (attributed t) := by
  induction t with
  | nil => exact fun l₁ l₂ o _ _ _ _ _ he => absurd he (by simp [attributed])
  | cons x t ih =>
    exact (ht x List.mem_cons_self).follows.append
      (ih fun y hy => ht y (List.mem_cons_of_mem _ hy))

end Dumb
end DisplayBuffers
