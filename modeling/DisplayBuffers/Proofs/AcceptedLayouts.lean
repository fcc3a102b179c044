import DisplayBuffers.Proofs.Whereabouts

/-! Buffers in one of several layouts. The list of layouts decides whether a buffer is made at all,
and beyond that has no part in it. -/
namespace DisplayBuffers
variable {σ ι : Type}

theorem Modifier.isTrivial_iff {m : Modifier} :
    m.isTrivial = true ↔ m = .linear ∨ m = .invalid := by
  simp [isTrivial]

theorem BufferObject.create_ne_unsupportedModifier (D : Driver σ ι) (width height : UInt32)
    (code : FormatCode) (usage : Usage) (w : World σ) (m : Modifier) :
    (create D width height code usage w).1 ≠ .error (.unsupportedModifier m) := by
  rcases h : create D width height code usage w with ⟨r, w'⟩
  cases created h <;> nofun

namespace Device

/-- One of the layouts needs no description, or none is asked for. -/
def Accepts (modifiers : List Modifier) : Prop :=
  modifiers = [] ∨ .linear ∈ modifiers ∨ .invalid ∈ modifiers

theorem Accepts.of_subset {l l' : List Modifier} (h : Accepts l) (hne : l ≠ []) (hl : l ⊆ l') :
    Accepts l' := by
  rcases h with h | h | h
  · exact absurd h hne
  · exact .inr (.inl (hl h))
  · exact .inr (.inr (hl h))

theorem accepts_congr {l l' : List Modifier} (h : ∀ m, m ∈ l ↔ m ∈ l') :
    Accepts l ↔ Accepts l' := by
  simp only [Accepts, List.eq_nil_iff_forall_not_mem, h]

theorem accepts_cons {m : Modifier} {l : List Modifier} :
    Accepts (m :: l) ↔ (m :: l).any (·.isTrivial) = true := by
  simp only [Accepts, reduceCtorEq, false_or, List.any_eq_true, Modifier.isTrivial_iff]
  constructor
  · rintro (h | h)
    · exact ⟨_, h, .inl rfl⟩
    · exact ⟨_, h, .inr rfl⟩
  · rintro ⟨x, hx, rfl | rfl⟩
    · exact .inl hx
    · exact .inr hx

theorem not_accepts_iff {l : List Modifier} {m : Modifier} :
    l.head? = some m ∧ ¬ Accepts l ↔ l.head? = some m ∧ .linear ∉ l ∧ .invalid ∉ l := by
  refine and_congr_right fun h => ?_
  have hne : l ≠ [] := by
    rintro rfl
    cases h
  simp [Accepts, hne]

section
variable {modifiers : List Modifier} (D : Driver σ ι) (width height : UInt32) (fourcc : Fourcc)
  (w : World σ)

theorem createBuffer_of_accepts (h : Accepts modifiers) :
    createBuffer D width height fourcc modifiers w =
      BufferObject.create D width height fourcc.code (Usage.scanout.union .rendering) w := by
  cases modifiers with
  | nil => rfl
  | cons m l => exact if_pos (accepts_cons.mp h)

theorem createBuffer_of_not_accepts (h : ¬ Accepts modifiers) :
    ∃ m, modifiers.head? = some m ∧
      createBuffer D width height fourcc modifiers w = (.error (.unsupportedModifier m), w) := by
  cases modifiers with
  | nil => exact absurd (.inl rfl) h
  | cons m l => exact ⟨m, rfl, if_neg (mt accepts_cons.mpr h)⟩

/-- The layouts are refused by the first of them, if at all. -/
theorem createBuffer_refused_iff (m : Modifier) :
    (createBuffer D width height fourcc modifiers w).1 = .error (.unsupportedModifier m) ↔
      modifiers.head? = some m ∧ ¬ Accepts modifiers := by
  by_cases h : Accepts modifiers
  · rw [createBuffer_of_accepts D width height fourcc w h]
    simp [h, BufferObject.create_ne_unsupportedModifier]
  · obtain ⟨m', hm, hc⟩ := createBuffer_of_not_accepts D width height fourcc w h
    rw [hc, hm]
    simp [h]

end

/-- Layouts were asked for, and none of them could be had. -/
def Refused (r : Except Error BufferObject) : Prop := ∃ m, r = .error (.unsupportedModifier m)

theorem createBuffer_refused (D : Driver σ ι) (width height : UInt32) (fourcc : Fourcc)
    (modifiers : List Modifier) (w : World σ) :
    Refused (createBuffer D width height fourcc modifiers w).1 ↔ ¬ Accepts modifiers := by
  constructor
  · rintro ⟨m, h⟩
    exact ((createBuffer_refused_iff D width height fourcc w m).mp h).2
  · intro h
    obtain ⟨m, -, hc⟩ := createBuffer_of_not_accepts D width height fourcc w h
    exact ⟨m, congrArg Prod.fst hc⟩

end Device

namespace Session
open Device (Accepts Refused)

section
variable {modifiers : List Modifier} (D : Driver σ ι) (s : Session σ) (name : String)
  (width height : UInt32) (fourcc : Fourcc)

theorem step_createBuffer_of_accepts (h : s.device = true → Accepts modifiers) :
    s.step D (.createBuffer name width height fourcc modifiers) =
      s.step D (.create name width height fourcc.code (Usage.scanout.union .rendering)) := by
  simp only [step, onDevice]
  split
  · next hd => rw [Device.createBuffer_of_accepts D width height fourcc s.world (h hd)]
  · rfl

theorem step_createBuffer_of_not_accepts (hd : s.device = true) (h : ¬ Accepts modifiers) :
    ∃ m, modifiers.head? = some m ∧
      s.step D (.createBuffer name width height fourcc modifiers) =
        (⟨.failed (.unsupportedModifier m), .nothing⟩, s) := by
  obtain ⟨m, hm, hc⟩ := Device.createBuffer_of_not_accepts D width height fourcc s.world h
  refine ⟨m, hm, ?_⟩
  rw [step, onDevice, if_pos hd, hc]
  rfl

theorem answer_create_ne_unsupportedModifier (code : FormatCode) (usage : Usage) (m : Modifier) :
    (s.step D (.create name width height code usage)).1.answer ≠
      .failed (.unsupportedModifier m) := by
  have hne := BufferObject.create_ne_unsupportedModifier D width height code usage s.world m
  simp only [step, onDevice]
  split
  · rcases hr : BufferObject.create D width height code usage s.world with ⟨e | b, w⟩
    · rw [hr] at hne
      rintro ⟨⟩
      exact hne rfl
    · rintro ⟨⟩
  · rintro ⟨⟩

/-- The list of layouts has the client refused, or no part in what happens. -/
theorem step_createBuffer (modifiers : List Modifier) :
    let e := s.step D (.createBuffer name width height fourcc modifiers)
    (∀ m, e.1.answer = .failed (.unsupportedModifier m) ↔
      s.device = true ∧ modifiers.head? = some m ∧ ¬ Accepts modifiers) ∧
    (e = s.step D (.create name width height fourcc.code (Usage.scanout.union .rendering)) ∨
      ∃ m, e = (⟨.failed (.unsupportedModifier m), .nothing⟩, s)) := by
  intro e
  by_cases h : s.device = true → Accepts modifiers
  · have he : e = _ := step_createBuffer_of_accepts D s name width height fourcc h
    refine ⟨fun m => iff_of_false ?_ fun k => k.2.2 (h k.1), .inl he⟩
    rw [he]
    exact answer_create_ne_unsupportedModifier D s name width height _ _ m
  · obtain ⟨hd, ha⟩ := Classical.not_imp.mp h
    obtain ⟨m, hm, he⟩ := step_createBuffer_of_not_accepts D s name width height fourcc hd ha
    change e = _ at he
    refine ⟨fun m' => ?_, .inr ⟨m, he⟩⟩
    rw [he, hm]
    simp [hd, ha]

end

/-- Where layouts are asked for and all of them need a description, no buffer is made and nothing
happens; the first of them is named, whatever the format. Otherwise the list makes no difference. So
neither order nor repetition decides whether a buffer is made, and a list with a layout that can be
had may have any others added to it. -/
theorem layouts_negotiated (D : Driver σ ι) (width height : UInt32) (fourcc : Fourcc)
    (modifiers : List Modifier) :
    let usage := Usage.scanout.union .rendering
    let made (l : List Modifier) (w : World σ) := Device.createBuffer D width height fourcc l w
    (∀ w m, (made modifiers w).1 = .error (.unsupportedModifier m) ↔
      modifiers.head? = some m ∧ .linear ∉ modifiers ∧ .invalid ∉ modifiers) ∧
    (∀ w, Refused (made modifiers w).1 → (made modifiers w).2 = w) ∧
    (∀ w, ¬ Refused (made modifiers w).1 →
      made modifiers w = BufferObject.create D width height fourcc.code usage w) ∧
    (∀ l w, (∀ m, m ∈ l ↔ m ∈ modifiers) →
      (Refused (made l w).1 ↔ Refused (made modifiers w).1) ∧
      (¬ Refused (made modifiers w).1 → made l w = made modifiers w)) ∧
    (∀ l w, modifiers ≠ [] → ¬ Refused (made modifiers w).1 →
      ¬ Refused (made (modifiers ++ l) w).1 ∧ made (modifiers ++ l) w = made modifiers w) ∧
    ∀ (s : Session σ) (name : String),
      let e := s.step D (.createBuffer name width height fourcc modifiers)
      (∀ m, e.1.answer = .failed (.unsupportedModifier m) ↔ s.device = true ∧
        modifiers.head? = some m ∧ .linear ∉ modifiers ∧ .invalid ∉ modifiers) ∧
      (e = s.step D (.create name width height fourcc.code usage) ∨
        ∃ m, e = (⟨.failed (.unsupportedModifier m), .nothing⟩, s)) := by
  intro usage made
  have haccepted {l : List Modifier} {w : World σ} (h : Accepts l) :
      made l w = BufferObject.create D width height fourcc.code usage w :=
    Device.createBuffer_of_accepts D width height fourcc w h
  have hrefused (l : List Modifier) (w : World σ) : Refused (made l w).1 ↔ ¬ Accepts l :=
    Device.createBuffer_refused D width height fourcc l w
  have hagree {l : List Modifier} (w : World σ) (h : Accepts modifiers) (hl : Accepts l) :
      made l w = made modifiers w := (haccepted hl).trans (haccepted h).symm
  refine ⟨fun w m => ?_, fun w h => ?_, fun w h => ?_, fun l w hl => ?_, fun l w hne h => ?_,
    fun s name => ⟨fun m => ?_, ?_⟩⟩
  · rw [← Device.not_accepts_iff]
    exact Device.createBuffer_refused_iff D width height fourcc w m
  · obtain ⟨m, -, hc⟩ := Device.createBuffer_of_not_accepts D width height fourcc w
      ((hrefused modifiers w).mp h)
    exact congrArg Prod.snd hc
  · exact haccepted (not_not.mp (mt (hrefused modifiers w).mpr h))
  · have hiff := Device.accepts_congr hl
    rw [hrefused, hrefused, hiff, not_not]
    exact ⟨Iff.rfl, fun h => hagree w h (hiff.mpr h)⟩
  · rw [hrefused, not_not] at h
    rw [hrefused, not_not]
    have hl : Accepts (modifiers ++ l) := h.of_subset hne (List.subset_append_left _ _)
    exact ⟨hl, hagree w h hl⟩
  · rw [← Device.not_accepts_iff]
    exact (step_createBuffer D s name width height fourcc modifiers).1 m
  · exact (step_createBuffer D s name width height fourcc modifiers).2

end Session
end DisplayBuffers
