import DisplayBuffers.Proofs.Transcript
import DisplayBuffers.Proofs.Whereabouts

/-! How long a display node stays open. It is opened for a device, closed at once if it has no dumb
buffers, and closed otherwise by the last who holds the driver. -/
namespace DisplayBuffers.Dumb
variable {κ ι : Type}
open Session (Op)

/-- What comes of opening a session on a node is settled by the capability alone. -/
theorem connect_cases (K : Kernel κ ι) (k : κ) :
    (∃ v, (K.capability k).1 = .ok v ∧ v ≠ 0 ∧ (connect K k).1 = .ok () ∧
      (connect K k).2.nodeOpen = true ∧ ∃ r, (connect K k).2.calls =
        [.capability (.ok v), .version r]) ∨
    (∃ e, (connect K k).1 = .error e) ∧ (¬ ∃ v, (K.capability k).1 = .ok v ∧ v ≠ 0) ∧
      (connect K k).2.nodeOpen = false ∧
      (connect K k).2.calls = [.capability (K.capability k).1, .closeNode] := by
  simp only [connect, Connection.ask]
  cases hr : (K.capability k).1 with
  | error e => exact .inr ⟨⟨_, rfl⟩, by simp, rfl, rfl⟩
  | ok v =>
    simp only [Except.mapError]
    by_cases hv : v = 0
    · rw [if_pos hv]
      exact .inr ⟨⟨_, rfl⟩, by simp [hv], rfl, rfl⟩
    · rw [if_neg hv]
      exact .inl ⟨v, rfl, hv, rfl, rfl, _, rfl⟩

/-- Neither other parties nor shared descriptors have to do with whether the node is open. -/
theorem driver_endsQuietly (K : Kernel κ ι) : (driver K).EndsQuietly :=
  ⟨fun _ => rfl, fun _ _ => rfl⟩

/-- While the node is open it is not closed, and its end is the last call. -/
theorem Transcript.closed_last {base : List Call} (hb : .closeNode ∉ base)
    {w : World (Connection κ)} {t : List (Event × List Call)} (h : Transcript base w t) :
    ∃ before, .closeNode ∉ before ∧
      w.driver.calls = before ++ if w.driver.nodeOpen then [] else [.closeNode] := by
  refine ⟨base ++ t.flatMap (·.2), ?_, h.calls⟩
  intro hm
  rcases List.mem_append.mp hm with hm | hm
  · exact hb hm
  · obtain ⟨x, hx, hc⟩ := List.mem_flatMap.mp hm
    exact (h.serves x hx).closeNode_not_mem hc

/-- A session is opened on a node if the node tells that it has dumb buffers, whatever it tells of
its name; otherwise the node is closed again, and nothing was asked of it but that. In every run
after it was opened, the node is open for as long as the device, a buffer object or a surface is
left. It is closed once, with the last of these, and is asked for nothing afterwards. For what the
client does without the device, it makes no difference when the device is destroyed; this is so for
every driver that ends as quietly as that of a node. -/
theorem node_lifetime (K : Kernel κ ι) (k : κ) :
    ((connect K k).1 = .ok () ↔ ∃ v, (K.capability k).1 = .ok v ∧ v ≠ 0) ∧
    (∀ e, (connect K k).1 = .error e → (connect K k).2.nodeOpen = false ∧
      (connect K k).2.calls = [.capability (K.capability k).1, .closeNode]) ∧
    ((connect K k).1 = .ok () → ∀ ops : List (Op ι),
      let s := ((Session.start (connect K k).2).run (driver K) ops).2
      (s.world.driver.nodeOpen = true ↔ s.device = true ∨
        (∃ name b, s.objects.find? name = some b) ∨
        ∃ surface x, s.surfaces.find? surface = some x) ∧
      (∃ before, .closeNode ∉ before ∧
        s.world.driver.calls = before ++ if s.world.driver.nodeOpen then [] else [.closeNode]) ∧
      (∃ before, .closeNode ∉ before ∧
        (s.finish (driver K)).world.driver.calls = before ++ [.closeNode]) ∧
      (s.device = true → ∀ later : List (Op ι), (∀ op ∈ later, ¬ op.AtDevice) →
        s.Outlasts (driver K) later)) ∧
    (driver K).EndsQuietly ∧
    ∀ {σ : Type} (D : Driver σ ι), D.EndsQuietly → ∀ (d : σ) (ops : List (Op ι)),
      ((Session.start d).run D ops).2.device = true →
      ∀ later : List (Op ι), (∀ op ∈ later, ¬ op.AtDevice) →
        ((Session.start d).run D ops).2.Outlasts D later := by
  have hgeneral {σ : Type} (D : Driver σ ι) (hD : D.EndsQuietly) (d : σ) (ops : List (Op ι))
      (hd : ((Session.start d).run D ops).2.device = true) (later : List (Op ι))
      (h : ∀ op ∈ later, ¬ op.AtDevice) : ((Session.start d).run D ops).2.Outlasts D later :=
    Session.run_outlasts hD d ops hd h
  rcases connect_cases K k with ⟨v, hv, hne, hok, hopen, r, hcalls⟩ | ⟨⟨e, he⟩, hv, hclosed⟩
  · refine ⟨iff_of_true hok ⟨v, hv, hne⟩, fun e he => ?_, fun _ ops => ?_, driver_endsQuietly K,
      hgeneral⟩
    · rw [hok] at he
      cases he
    · intro s
      have hbase : .closeNode ∉ (connect K k).2.calls := by simp [hcalls]
      obtain ⟨hnode, t, ht⟩ := run_transcript K hopen ops
      have hcounted : s.Counted := Session.run_counted (Session.start_counted _) ops
      refine ⟨?_, ht.closed_last hbase, ?_, hgeneral _ (driver_endsQuietly K) _ ops⟩
      · rw [hnode, decide_eq_true_iff]
        exact hcounted.alive
      · have hfinish : s.finish (driver K) =
            ((Session.start (connect K k).2).run (driver K) (ops ++ s.closing)).2 :=
          (Session.run_append _ ops _).symm
        obtain ⟨hnode', t', ht'⟩ := run_transcript K hopen (ops ++ s.closing)
        rw [← hfinish] at hnode' ht'
        obtain ⟨before, hbefore, hcalls'⟩ := ht'.closed_last hbase
        rw [hnode', hcounted.finish] at hcalls'
        exact ⟨before, hbefore, hcalls'⟩
  · refine ⟨iff_of_false (fun h => by rw [he] at h; cases h) hv, fun _ _ => hclosed, fun h => ?_,
      driver_endsQuietly K, hgeneral⟩
    rw [he] at h
    cases h

end DisplayBuffers.Dumb
