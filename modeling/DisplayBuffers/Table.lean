/-! Finite maps as lists of pairs with distinct keys. Looking up after an insertion or a removal
is settled by `find?_insert` and `find?_erase`. -/
namespace DisplayBuffers

structure Table (κ α : Type) where
  entries : List (κ × α)
  distinct : (entries.map Prod.fst).Nodup

namespace Table
variable {κ α : Type}

def empty : Table κ α := ⟨[], List.nodup_nil⟩

def keys (t : Table κ α) : List κ := t.entries.map Prod.fst

variable [DecidableEq κ]

def find? (t : Table κ α) (k : κ) : Option α := t.entries.lookup k

def erase (t : Table κ α) (k : κ) : Table κ α where
  entries := t.entries.filter (fun e => e.1 ≠ k)
  distinct := t.distinct.sublist (List.filter_sublist.map _)

/-- The new pair comes first; an earlier one with the same key is gone. -/
def insert (t : Table κ α) (k : κ) (a : α) : Table κ α where
  entries := (k, a) :: (t.erase k).entries
  distinct := by
    refine List.nodup_cons.mpr ⟨?_, (t.erase k).distinct⟩
    simp [erase]

private theorem lookup_filter_ne (l : List (κ × α)) (k j : κ) (h : j ≠ k) :
    (l.filter (fun e => e.1 ≠ k)).lookup j = l.lookup j := by
  induction l with
  | nil => rfl
  | cons e l ih =>
    obtain ⟨i, a⟩ := e
    by_cases hi : i = k
    · have hj : (j == i) = false := by simpa [hi] using h
      rw [List.filter_cons_of_neg (by simpa using hi), List.lookup_cons, hj, ih]
    · rw [List.filter_cons_of_pos (by simpa using hi), List.lookup_cons, List.lookup_cons, ih]

private theorem lookup_filter_self (l : List (κ × α)) (k : κ) :
    (l.filter (fun e => e.1 ≠ k)).lookup k = none := by
  rw [List.lookup_eq_none_iff]
  intro e he
  have hk := (List.mem_filter.mp he).2
  simp only [ne_eq, decide_eq_true_eq] at hk
  simpa using fun h => hk h.symm

theorem find?_erase (t : Table κ α) (k j : κ) :
    (t.erase k).find? j = if j = k then none else t.find? j := by
  split
  · next h => subst h; exact lookup_filter_self _ _
  · next h => exact lookup_filter_ne _ _ _ h

theorem find?_insert (t : Table κ α) (k j : κ) (a : α) :
    (t.insert k a).find? j = if j = k then some a else t.find? j := by
  split
  · next h => subst h; simp [find?, insert]
  · next h =>
    have hb : (j == k) = false := by simpa using h
    show List.lookup j ((k, a) :: (t.erase k).entries) = _
    rw [List.lookup_cons, hb]
    exact lookup_filter_ne t.entries k j h

private theorem entries_erase_insert (t : Table κ α) (k : κ) (a : α) :
    ((t.insert k a).erase k).entries = (t.erase k).entries := by
  simp [erase, insert]

/-- Of two insertions under one key the first is gone without a trace. -/
theorem insert_insert (t : Table κ α) (k : κ) (a b : α) :
    (t.insert k a).insert k b = t.insert k b := by
  have h := congrArg ((k, b) :: ·) (t.entries_erase_insert k a)
  exact (mk.injEq _ _ _ _).mpr h

end Table
end DisplayBuffers
