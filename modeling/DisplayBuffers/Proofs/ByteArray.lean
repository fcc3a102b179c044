import Mathlib.Order.Interval.Set.Basic
import DisplayBuffers.Proofs.MappedLength

/-! The bytes behind a mapping as an array. Where different offsets lead to different cells, what
users of a mapping are answered, and what they leave, is what they would be answered and would leave
if the bytes were a list of their own. -/
namespace DisplayBuffers
variable {σ ι : Type}

namespace Memory
variable {m m' : Memory} {v v' : Nat → Cell} {n : Nat}

@[simp] theorem length_read (m : Memory) (v : Nat → Cell) (offset n : Nat) :
    (m.read v offset n).length = n := by
  rw [read, List.length_map, List.length_range]

theorem getElem?_read (m : Memory) (v : Nat → Cell) (n i : Nat) :
    (m.read v 0 n)[i]? = if i < n then some (m.byte (v i)) else none := by
  rw [read, List.getElem?_map]
  by_cases hi : i < n <;> simp [hi]

theorem read_congr (h : ∀ i < n, m'.byte (v' i) = m.byte (v i)) :
    m'.read v' 0 n = m.read v 0 n := by
  apply List.ext_getElem?
  intro i
  rw [getElem?_read, getElem?_read]
  by_cases hi : i < n
  · rw [if_pos hi, if_pos hi, h i hi]
  · rw [if_neg hi, if_neg hi]

theorem read_within (m : Memory) (v : Nat → Cell) {offset count : Nat} (h : offset + count ≤ n) :
    m.read v offset count = ((m.read v 0 n).drop offset).take count := by
  apply List.ext_getElem?
  intro i
  rw [read, List.getElem?_map, List.getElem?_take, List.getElem?_drop, getElem?_read]
  by_cases hi : i < count
  · have hn : offset + i < n := by omega
    simp [hi, hn]
  · simp [hi]

theorem write_append (m : Memory) (v : Nat → Cell) (data : List UInt8) (x : UInt8) :
    m.write v (data ++ [x]) = (m.write v data).set (v data.length) x := by
  simp [write, List.zipIdx_append]

theorem byte_write_of_ne {data : List UInt8} {c : Cell} (h : ∀ i < data.length, c ≠ v i) :
    (m.write v data).byte c = m.byte c := by
  induction data using List.reverseRecOn with
  | nil => rfl
  | append_singleton data x ih =>
    simp only [List.length_append, List.length_singleton] at h
    rw [write_append, byte_set, if_neg (h _ (by omega))]
    exact ih fun i hi => h i (by omega)

theorem byte_write (hv : Set.InjOn v (Set.Iio n)) {data : List UInt8} (hd : data.length ≤ n)
    {i : Nat} (hi : i < n) : (m.write v data).byte (v i) = data.getD i (m.byte (v i)) := by
  induction data using List.reverseRecOn with
  | nil => rfl
  | append_singleton data x ih =>
    simp only [List.length_append, List.length_singleton] at hd
    have hlast : v i = v data.length ↔ i = data.length :=
      hv.eq_iff (Set.mem_Iio.mpr hi) (Set.mem_Iio.mpr (by omega))
    rw [write_append, byte_set, ih (by omega)]
    simp only [hlast, List.getD_eq_getElem?_getD]
    rcases lt_trichotomy i data.length with h | h | h
    · simp [h.ne, List.getElem?_append_left h]
    · simp [h]
    · rw [if_neg h.ne', List.getElem?_eq_none h.le, List.getElem?_eq_none (by simp; omega)]

theorem read_write (hv : Set.InjOn v (Set.Iio n)) {data : List UInt8} (hd : data.length ≤ n) :
    (m.write v data).read v 0 n = data ++ (m.read v 0 n).drop data.length := by
  apply List.ext_getElem?
  intro i
  rw [getElem?_read, List.getElem?_append, List.getElem?_drop, getElem?_read]
  by_cases hl : i < data.length
  · have hi : i < n := hl.trans_le hd
    simp [hl, hi, byte_write hv hd hi]
  · rw [if_neg hl, Nat.add_sub_cancel' (Nat.le_of_not_lt hl)]
    by_cases hi : i < n
    · simp [hi, byte_write hv hd hi, List.getElem?_eq_none (Nat.le_of_not_lt hl)]
    · simp [hi]

theorem read_poke (hv : Set.InjOn v (Set.Iio n)) {offset : Nat} (value : UInt8) (h : offset < n) :
    (m.poke v offset value).read v 0 n = (m.read v 0 n).set offset value := by
  apply List.ext_getElem?
  intro i
  rw [getElem?_read, poke, byte_set, List.getElem?_set, length_read, getElem?_read]
  by_cases hi : i < n
  · simp only [hv.eq_iff (Set.mem_Iio.mpr hi) (Set.mem_Iio.mpr h)]
    by_cases hio : i = offset
    · simp [hio, h]
    · simp [hio, Ne.symm hio, hi]
  · have hne : offset ≠ i := by omega
    simp [hi, hne]

end Memory

namespace BufferObject

/-- What an access makes of the bytes, if it is let through. -/
def Access.store (l : List UInt8) : Access → List UInt8
  | .write data => data ++ l.drop data.length
  | .poke offset value => l.set offset value
  | .peek _ _ | .inspect => l

/-- What an access is answered, if the bytes are an array. -/
def Access.seen (b : BufferObject) (a : Address) (l : List UInt8) : Access → Seen
  | .write data => .written <|
    if data.length ≤ b.byteSize then .ok () else .error (.invalidArgument .writeTooLong)
  | .poke offset _ => .poked (offset < b.byteSize)
  | .peek offset count => .peeked <|
    if offset + count ≤ b.byteSize then some ((l.drop offset).take count) else none
  | .inspect => .inspected b.byteSize b.references a

/-- The bytes after accesses, of which those that were let through are done in order. -/
def replay (l : List UInt8) (xs : List (Access × Seen)) : List UInt8 :=
  xs.foldl (fun l x => if x.2.accepted then x.1.store l else l) l

theorem replay_append (l : List UInt8) (xs ys : List (Access × Seen)) :
    replay l (xs ++ ys) = replay (replay l xs) ys := List.foldl_append

/-- What accesses one after the other are answered, if the bytes are an array. -/
def seenAll (b : BufferObject) (a : Address) : List Access → List UInt8 → List Seen
  | [], _ => []
  | x :: xs, l => x.seen b a l :: b.seenAll a xs (replay l [(x, x.seen b a l)])

/-- From one memory to the next, accesses were done to the first bytes of so many in cells. -/
structure Replayed (size n : Nat) (v : Nat → Cell) (m m' : Memory) (xs : List (Access × Seen)) :
    Prop where
  contents : m'.read v 0 n = replay (m.read v 0 n) xs
  beyond : ∀ i, size ≤ i → i < n → m'.byte (v i) = m.byte (v i)

/-- From one memory to the next, accesses were done to the first bytes of a view, and nothing to any
other bytes. -/
structure Stored (size : Nat) (v : Nat → Cell) (m m' : Memory) (xs : List (Access × Seen)) :
    Prop where
  contents : ∀ n, size ≤ n → Set.InjOn v (Set.Iio n) →
    m'.read v 0 n = replay (m.read v 0 n) xs
  elsewhere : ∀ c, (∀ i < size, c ≠ v i) → m'.byte c = m.byte c

section
variable {size n : Nat} {v v' : Nat → Cell} {m m' m'' : Memory} {xs ys : List (Access × Seen)}

theorem Replayed.of_same (h : ∀ i < n, m'.byte (v i) = m.byte (v i)) :
    Replayed size n v m m' [] where
  contents := Memory.read_congr h
  beyond i _ hi := h i hi

theorem Replayed.trans (h : Replayed size n v m m' xs) (k : Replayed size n v m' m'' ys) :
    Replayed size n v m m'' (xs ++ ys) where
  contents := by rw [k.contents, h.contents, replay_append]
  beyond i hi hn := (k.beyond i hi hn).trans (h.beyond i hi hn)

theorem Stored.refl : Stored size v m m [] where
  contents _ _ _ := rfl
  elsewhere _ _ := rfl

theorem Stored.trans (h : Stored size v m m' xs) (k : Stored size v m' m'' ys) :
    Stored size v m m'' (xs ++ ys) where
  contents n hn hv := by rw [k.contents n hn hv, h.contents n hn hv, replay_append]
  elsewhere c hc := (k.elsewhere c hc).trans (h.elsewhere c hc)

/-- A view is as good as another that shows the same. -/
theorem Replayed.congr (h : Replayed size n v m m' xs) (hv : ∀ i < n, v i = v' i) :
    Replayed size n v' m m' xs where
  contents := by
    have hsame (m : Memory) : m.read v' 0 n = m.read v 0 n :=
      Memory.read_congr fun i hi => congrArg m.byte (hv i hi).symm
    rw [hsame, hsame, h.contents]
  beyond i hi hn := by
    rw [← hv i hn]
    exact h.beyond i hi hn

theorem Stored.congr (h : Stored size v m m' xs) (hs : size ≤ n) (hv : ∀ i < n, v i = v' i)
    {c : Cell} (hc : ∀ i < size, c ≠ v' i) : m'.byte c = m.byte c :=
  h.elsewhere c fun i hi he => hc i hi (he.trans (hv i (hi.trans_le hs)))

/-- An access that is not let through, or does not store, is none. -/
theorem Stored.of_idle {x : Access} {y : Seen} (h : ∀ l, y.accepted = true → x.store l = l) :
    Stored size v m m [(x, y)] where
  contents n _ _ := by
    simp only [replay, List.foldl_cons, List.foldl_nil]
    split
    · next hy => exact (h _ hy).symm
    · rfl
  elsewhere _ _ := rfl

theorem stored_write (v : Nat → Cell) (m : Memory) {data : List UInt8} (h : data.length ≤ size) :
    Stored size v m (m.write v data) [(.write data, .written (.ok ()))] where
  contents _ hn hv := Memory.read_write hv (h.trans hn)
  elsewhere _ hc := Memory.byte_write_of_ne fun i hi => hc i (hi.trans_le h)

theorem stored_poke (v : Nat → Cell) (m : Memory) {offset : Nat} (value : UInt8)
    (h : offset < size) :
    Stored size v m (m.poke v offset value) [(.poke offset value, .poked true)] where
  contents n hn hv := Memory.read_poke hv value (h.trans_le hn)
  elsewhere c hc := by rw [Memory.poke, Memory.byte_set, if_neg (hc offset h)]

end

section
variable {D : Driver σ ι} {b : BufferObject} {a : Address}

theorem access_stored (hm : b.mapping = some a) (w : World σ) (x : Access) :
    Stored b.byteSize (w.view D a) w.memory (b.access D a w x).2.memory
      [(x, (b.access D a w x).1)] := by
  cases x with
  | write data =>
    by_cases h : b.byteSize < data.length
    · simp only [access, write, hm, h, if_true]
      exact .of_idle (by simp [Seen.accepted])
    · simp only [access, write, hm, h, if_false]
      exact stored_write _ w.memory (Nat.le_of_not_lt h)
  | poke offset value =>
    by_cases h : offset < b.byteSize
    · simp only [access, h, if_true]
      exact stored_poke _ w.memory value h
    · simp only [access, h, if_false]
      exact .of_idle (by simp [Seen.accepted])
  | peek offset count =>
    simp only [access]
    split <;> exact .of_idle fun _ _ => rfl
  | inspect => exact .of_idle fun _ _ => rfl

theorem access_seen (hm : b.mapping = some a) (w : World σ) (x : Access) {n : Nat}
    (hn : b.byteSize ≤ n) :
    (b.access D a w x).1 = x.seen b a (w.memory.read (w.view D a) 0 n) := by
  cases x with
  | write data =>
    by_cases h : data.length ≤ b.byteSize
    · simp [access, write, Access.seen, hm, h, Nat.not_lt.mpr h]
    · simp [access, write, Access.seen, hm, h, Nat.lt_of_not_le h]
  | poke offset value =>
    by_cases h : offset < b.byteSize <;> simp [access, Access.seen, h]
  | peek offset count =>
    by_cases h : offset + count ≤ b.byteSize
    · simp [access, Access.seen, h, w.memory.read_within _ (h.trans hn)]
    · simp [access, Access.seen, h]
  | inspect => rfl

/-- An access leaves the address space as it is. -/
theorem view_access (b : BufferObject) (a : Address) (w : World σ) (x : Access) :
    (b.access D a w x).2.view D = w.view D := by
  obtain ⟨m, hw⟩ := b.access_memory D a w x
  rw [hw]
  rfl

/-- Any number of accesses through one mapping. -/
theorem accessAll_stored (hm : b.mapping = some a) (accesses : List Access) (w : World σ) :
    Stored b.byteSize (w.view D a) w.memory (b.accessAll D a accesses w).2.memory
      (accesses.zip (b.accessAll D a accesses w).1) := by
  induction accesses generalizing w with
  | nil => exact .refl
  | cons x xs ih =>
    have h := ih (b.access D a w x).2
    rw [view_access] at h
    exact (access_stored hm w x).trans h

/-- The answers to accesses one after the other. -/
theorem accessAll_seen (hm : b.mapping = some a) (accesses : List Access) (w : World σ) {n : Nat}
    (hn : b.byteSize ≤ n) (hv : Set.InjOn (w.view D a) (Set.Iio n)) :
    (b.accessAll D a accesses w).1 =
      b.seenAll a accesses (w.memory.read (w.view D a) 0 n) := by
  induction accesses generalizing w with
  | nil => rfl
  | cons x xs ih =>
    have h := ih (b.access D a w x).2
    rw [view_access] at h
    rw [accessAll, seenAll, ← access_seen hm w x hn, ← (access_stored hm w x).contents n hn hv,
      ← h hv]

end
end BufferObject
end DisplayBuffers
