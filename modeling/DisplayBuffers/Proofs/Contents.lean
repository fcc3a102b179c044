import DisplayBuffers.Proofs.MemoryFrame
import DisplayBuffers.Proofs.RoamingKernel

/-! The contents of buffer objects. However often an object is mapped and unmapped, and wherever
that is, its bytes are what was stored through its mappings, and nothing else is stored there. -/
namespace DisplayBuffers.Session
open BufferObject (Access Seen Replayed Stored replay seenAll)
variable {σ ι : Type} {D : Driver σ ι}

/-- The accesses to the bytes of the object at a target that an operation makes, with the answers.
-/
def Turn.accesses (t : Target) (e : Turn σ ι) : List (Access × Seen) :=
  match e.op, e.answer with
  | .write u data, .done => if u = t then [(.write data, .written (.ok ()))] else []
  | .withMapping u accesses, .accesses seen => if u = t then accesses.zip seen else []
  | _, _ => []

section
variable {home : σ → Storage → Nat → Cell} {d : σ} {ops : List (Op ι)} {op : Op ι} {t : Target}
  {b : BufferObject} {v : Nat → Cell} {n : Nat}

private theorem counted (hb : ((start d).run D ops).2.object? t = some b) : b.Counted :=
  (tracked D d ops t b hb).counted

end

/-- A write is answered by what the object is: not mapped, too small for the data, or neither. One
that is not done changes nothing. -/
theorem answer_write {s : Session σ} {t : Target} {b : BufferObject} (hb : s.object? t = some b)
    (D : Driver σ ι) (data : List UInt8) :
    (s.step D (.write t data)).1.answer =
        (if b.isMapped then
          if data.length ≤ b.byteSize then .done else .failed (.invalidArgument .writeTooLong)
        else .failed .notMapped) ∧
      ((s.step D (.write t data)).1.answer ≠ .done → s.Alike (s.step D (.write t data)).2) := by
  have hop : (Op.write t data : Op ι).target? = some t := rfl
  obtain ⟨ht, hw⟩ := turn_of_target? (D := D) hop hb
  have hanswer : (s.step D (.write t data)).1.answer = .ofUnit (b.write D data s.world).1 :=
    congrArg Turn.answer ht
  rw [hanswer]
  refine ⟨?_, fun hn => ?_⟩
  · cases hm : b.mapping with
    | none => simp [BufferObject.write, BufferObject.isMapped, hm, Answer.ofUnit]
    | some a =>
      by_cases hl : data.length ≤ b.byteSize
      · simp [BufferObject.write, BufferObject.isMapped, hm, hl, Nat.not_lt.mpr hl, Answer.ofUnit]
      · simp [BufferObject.write, BufferObject.isMapped, hm, hl, Nat.lt_of_not_le hl,
          Answer.ofUnit]
  · have hsame : (b.write D data s.world).2 = s.world := by
      rw [BufferObject.write] at hn ⊢
      split
      · rfl
      · split
        · rfl
        · next hm hl => simp [hm, hl, Answer.ofUnit] at hn
    have h := alike_onObject (f := (Op.write t data).work D) hb rfl
    exact ⟨hw.trans hsame, h.device, h.objects, h.surfaces, h.descriptors,
      h.memories, h.ids⟩

end DisplayBuffers.Session
