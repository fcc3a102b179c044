import Mathlib.Data.Multiset.AddSub
import Mathlib.Data.Multiset.MapFold
import DisplayBuffers.Table

/-! The values of a finite map as a bag. Names drop out, so that insertion adds one value and
removal takes one away. -/
namespace DisplayBuffers.Table
variable {κ α : Type}

def values (t : Table κ α) : Multiset α := (t.entries.map Prod.snd : List α)

variable [DecidableEq κ]

private theorem filter_absent {l : List (κ × α)} {k : κ} (h : k ∉ l.map Prod.fst) :
    l.filter (fun e => e.1 ≠ k) = l := by
  apply List.filter_eq_self.mpr
  intro e he
  have hne : e.1 ≠ k := fun hk => h (hk ▸ List.mem_map_of_mem he)
  simpa using hne

private theorem values_split {l : List (κ × α)} {k : κ} {a : α} (hd : (l.map Prod.fst).Nodup)
    (h : l.lookup k = some a) :
    ((l.map Prod.snd : List α) : Multiset α) =
      a ::ₘ ((l.filter (fun e => e.1 ≠ k)).map Prod.snd : List α) := by
  induction l with
  | nil => cases h
  | cons e l ih =>
    obtain ⟨i, x⟩ := e
    obtain ⟨hi, hl⟩ := List.nodup_cons.mp hd
    by_cases hk : k = i
    · subst hk
      have hx : x = a := by simpa using h
      rw [List.filter_cons_of_neg (by simp), filter_absent hi, hx]
      rfl
    · have hb : (k == i) = false := by simpa using hk
      rw [List.lookup_cons, hb] at h
      rw [List.filter_cons_of_pos (by simpa using Ne.symm hk), List.map_cons, List.map_cons,
        ← Multiset.cons_coe, ← Multiset.cons_coe, ih hl h, Multiset.cons_swap]

theorem values_of_find? {t : Table κ α} {k : κ} {a : α} (h : t.find? k = some a) :
    t.values = a ::ₘ (t.erase k).values :=
  values_split t.distinct h

theorem values_erase_of_find?_none {t : Table κ α} {k : κ} (h : t.find? k = none) :
    (t.erase k).values = t.values := by
  have hk : k ∉ t.entries.map Prod.fst := by
    rintro hk
    obtain ⟨e, he, rfl⟩ := List.mem_map.mp hk
    have := List.lookup_eq_none_iff.mp h e he
    simp at this
  show ((List.map Prod.snd (t.entries.filter _) : List α) : Multiset α) = _
  rw [filter_absent hk]
  rfl

@[simp] theorem values_insert (t : Table κ α) (k : κ) (a : α) :
    (t.insert k a).values = a ::ₘ (t.erase k).values := rfl

theorem mem_values_of_find? {t : Table κ α} {k : κ} {a : α} (h : t.find? k = some a) :
    a ∈ t.values := by
  rw [values_of_find? h]
  exact Multiset.mem_cons_self _ _

theorem find?_of_mem_values {t : Table κ α} {a : α} (h : a ∈ t.values) :
    ∃ k, t.find? k = some a := by
  obtain ⟨⟨k, _⟩, he, rfl⟩ := List.mem_map.mp (Multiset.mem_coe.mp h)
  refine ⟨k, ?_⟩
  have hd := t.distinct
  rw [find?]
  generalize t.entries = l at he hd
  induction l with
  | nil => cases he
  | cons e l ih =>
    obtain ⟨hi, hl⟩ := List.nodup_cons.mp hd
    rcases List.mem_cons.mp he with rfl | he
    · simp
    · have hk : k ≠ e.1 := fun hk => hi (hk ▸ List.mem_map_of_mem he)
      rw [List.lookup_cons, beq_false_of_ne hk]
      exact ih he hl

theorem exists_find?_iff {t : Table κ α} : (∃ k a, t.find? k = some a) ↔ t.values ≠ 0 := by
  constructor
  · rintro ⟨k, a, h⟩ h'
    exact Multiset.notMem_zero a (h' ▸ mem_values_of_find? h)
  · intro h
    obtain ⟨a, ha⟩ := Multiset.exists_mem_of_ne_zero h
    obtain ⟨k, hk⟩ := find?_of_mem_values ha
    exact ⟨k, a, hk⟩

end DisplayBuffers.Table
