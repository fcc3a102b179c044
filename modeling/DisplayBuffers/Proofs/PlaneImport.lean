import DisplayBuffers.Proofs.CallLog

/-! Imports of several planes, conversion by conversion. What comes of one is told from the driver's
answers alone: up to the first refusal every descriptor is converted, and after it none. -/
namespace DisplayBuffers
variable {σ ι : Type} {D : Driver σ ι}

namespace Driver

/-- The driver after requests to convert descriptors, one after the other. -/
def asked (D : Driver σ ι) (ds : List Dmabuf) (x : σ) : σ :=
  ds.foldl (fun x d => (D.importDescriptor d x).2) x

/-- The driver's answers to such requests. -/
def answers (D : Driver σ ι) : List Dmabuf → σ → List (Except IoError Handle)
  | [], _ => []
  | d :: ds, x => (D.importDescriptor d x).1 :: D.answers ds (D.importDescriptor d x).2

theorem length_answers (D : Driver σ ι) (ds : List Dmabuf) (x : σ) :
    (D.answers ds x).length = ds.length := by
  induction ds generalizing x with
  | nil => rfl
  | cons d ds ih => rw [answers, List.length_cons, List.length_cons, ih]

end Driver

namespace World

/-- The world after such requests. Nothing is different but the driver, and the calls in the log. -/
def asking (w : World σ) (D : Driver σ ι) (ds : List Dmabuf) : World σ :=
  { w with
    driver := D.asked ds w.driver
    events := w.events ++ List.zipWith .importDescriptor ds (D.answers ds w.driver) }

theorem asking_nil (w : World σ) (D : Driver σ ι) : w.asking D [] = w := by
  simp [asking, Driver.asked]

theorem asking_cons (w : World σ) (D : Driver σ ι) (d : Dmabuf) (ds : List Dmabuf) :
    w.asking D (d :: ds) = (w.importDescriptor D d).2.asking D ds := by
  simp [asking, Driver.asked, Driver.answers, importDescriptor, record]

end World

namespace BufferObject

/-- The planes of an import are those of the conversions before the first refusal, each with the
stride in the same place. -/
theorem convertPlanes_told (D : Driver σ ι) {ds : List Dmabuf} {strides : List UInt32}
    (hl : strides.length = ds.length) (w : World σ) :
    (∃ handles, D.answers ds w.driver = handles.map .ok ∧
      convertPlanes D (ds.zip strides) w =
        (.ok (List.zipWith Plane.mk handles strides), w.asking D ds)) ∨
    ∃ before d rest handles c, ds = before ++ d :: rest ∧
      D.answers (before ++ [d]) w.driver = handles.map .ok ++ [.error c] ∧
      convertPlanes D (ds.zip strides) w =
        (.error (c, List.zipWith Plane.mk handles strides), w.asking D (before ++ [d])) := by
  induction ds generalizing strides w with
  | nil => exact .inl ⟨[], rfl, by rw [World.asking_nil]; rfl⟩
  | cons d ds ih =>
    obtain _ | ⟨stride, strides⟩ := strides
    · cases hl
    have hasking := w.asking_cons D d
    have hfirst : (w.importDescriptor D d).1 = (D.importDescriptor d w.driver).1 := rfl
    have hdriver : (w.importDescriptor D d).2.driver = (D.importDescriptor d w.driver).2 := rfl
    rw [List.zip_cons_cons, convertPlanes]
    rcases hq : w.importDescriptor D d with ⟨c | handle, w₁⟩ <;> rw [hq] at hasking hfirst hdriver
    · refine .inr ⟨[], d, ds, [], c, rfl, ?_, ?_⟩
      · simp [Driver.answers, ← hfirst]
      · rw [List.nil_append, hasking, World.asking_nil]
        rfl
    · rcases ih (Nat.succ.inj hl) w₁ with
        ⟨handles, ha, hc⟩ | ⟨before, d', rest, handles, c, rfl, ha, hc⟩
      · refine .inl ⟨handle :: handles, ?_, ?_⟩
        · rw [Driver.answers, ← hfirst, ← hdriver, ha, List.map_cons]
        · dsimp only
          rw [hc, hasking]
          rfl
      · refine .inr ⟨d :: before, d', rest, handle :: handles, c, rfl, ?_, ?_⟩
        · rw [List.cons_append, Driver.answers, ← hfirst, ← hdriver, ha]
          rfl
        · dsimp only
          rw [hc, List.cons_append, hasking]
          rfl

theorem convertPlanes_length {ds : List Dmabuf} {strides : List UInt32}
    (hl : strides.length = ds.length) {w w' : World σ} {planes : List Plane}
    (h : convertPlanes D (ds.zip strides) w = (.ok planes, w')) : planes.length = ds.length := by
  rcases convertPlanes_told D hl w with ⟨handles, ha, hp⟩ | ⟨_, _, _, _, _, _, _, hp⟩
  · have hlength := D.length_answers ds w.driver
    rw [ha, List.length_map] at hlength
    obtain ⟨⟨rfl⟩, _⟩ := Prod.mk.inj (h.symm.trans hp)
    rw [List.length_zipWith, hlength, hl, Nat.min_self]
  · rw [hp] at h
    cases h

/-- The planes that handles make up with strides have these handles, if there are strides enough. -/
private theorem handles_of_zip {handles : List Handle} {strides : List UInt32}
    (hl : handles.length ≤ strides.length) :
    (List.zipWith Plane.mk handles strides).map (·.handle) = handles := by
  induction handles generalizing strides with
  | nil => simp
  | cons handle handles ih =>
    obtain _ | ⟨stride, strides⟩ := strides
    · cases hl
    · rw [List.zipWith_cons_cons, List.map_cons, ih (Nat.le_of_succ_le_succ hl)]

/-- What came of an import whose descriptors were accepted. If the driver converts them all there is
a new object that borrows, with the handles that were answered and the strides that were given, and
that holds the driver. If it refuses one, its refusal is the error that is answered; the handles
before it are warned of, and nothing is done about them. -/
inductive PlanesSettled (D : Driver σ ι) (ds : List Dmabuf) (strides : List UInt32)
    (width height : UInt32) (format : FormatCode) (w : World σ) :
    Except Error BufferObject × World σ → Prop
  | converted {handles} (answered : D.answers ds w.driver = handles.map .ok) :
      PlanesSettled D ds strides width height format w
        (.ok {
            id := ⟨w.identities⟩, width, height, format := format.canonical
            planes := List.zipWith Plane.mk handles strides
            byteSize := rowBytes (strides.headD 0) height
            backing := .borrowed none none
            mapping := none
            references := 0
            locked := false },
          { w with
            driver := D.asked ds w.driver
            events := w.events ++
              List.zipWith .importDescriptor ds (handles.map .ok)
            identities := w.identities + 1
            holders := w.holders + 1 })
  | aborted {before d rest handles c} (order : ds = before ++ d :: rest)
      (answered : D.answers (before ++ [d]) w.driver = handles.map .ok ++ [.error c]) :
      PlanesSettled D ds strides width height format w
        (.error (.allocation .importPlane c),
          { w with
            driver := D.asked (before ++ [d]) w.driver
            events := w.events ++
              List.zipWith .importDescriptor (before ++ [d]) (handles.map .ok ++ [.error c]) ++
              if handles = [] then [] else [.warn (.importAborted handles)] })

theorem importPlanes_settled {ds : List Dmabuf} {strides : List UInt32} {modifier : Modifier}
    (hm : modifier.isTrivial) (hc : ¬(ds.length = 0 ∨ maxPlanes < ds.length))
    (hl : strides.length = ds.length) (width height : UInt32) (format : FormatCode) (w : World σ) :
    PlanesSettled D ds strides width height format w
      (importPlanes D ds strides width height format modifier w) := by
  unfold importPlanes
  rw [if_neg (by simp [hm]), if_neg hc, if_neg (not_not_intro hl)]
  rcases convertPlanes_told D hl w with
    ⟨handles, ha, hp⟩ | ⟨before, d, rest, handles, c, ho, ha, hp⟩
  · have hlength : handles.length = ds.length := by
      rw [← D.length_answers ds w.driver, ha, List.length_map]
    -- With as many strides as handles, the first plane has the first stride.
    have hstride : ((List.zipWith Plane.mk handles strides).head?.map (·.stride)).getD 0 =
        strides.headD 0 := by
      rw [← hl] at hlength
      match strides, handles, hlength with
      | [], [], _ => rfl
      | stride :: strides, handle :: handles, _ => rfl
    rw [hp]
    simp only [borrow, World.freshId, World.hold, World.asking, hstride, ha]
    exact .converted ha
  · have hlength : handles.length = before.length := by
      have := D.length_answers (before ++ [d]) w.driver
      rw [ha] at this
      simpa using this
    have hhandles : (List.zipWith Plane.mk handles strides).map (·.handle) = handles := by
      refine handles_of_zip ?_
      rw [hl, ho, List.length_append, hlength]
      exact Nat.le_add_right _ _
    have hempty : (List.zipWith Plane.mk handles strides).isEmpty = handles.isEmpty := by
      rw [← hhandles, List.isEmpty_map, hhandles]
    have haborted : PlanesSettled D ds strides width height format w _ := .aborted ho ha
    rw [hp]
    simp only [hhandles, hempty]
    cases handles <;> simpa [World.asking, World.warn, World.record, ha] using haborted

/-- An import of several planes is refused at once, or settled by the answers to the conversions. -/
theorem importFrom_planes_cases (D : Driver σ ι) (ds : List Dmabuf) (strides : List UInt32)
    (width height : UInt32) (format : FormatCode) (modifier : Modifier) (w : World σ) :
    (∃ x, importFrom D (.planes ds strides width height format modifier) w = (.error x, w)) ∨
      PlanesSettled D ds strides width height format w
        (importFrom D (.planes ds strides width height format modifier) w) := by
  by_cases hm : modifier.isTrivial
  · by_cases hc : ds.length = 0 ∨ maxPlanes < ds.length
    · exact .inl ⟨_, by rw [importFrom, importPlanes, if_neg (by simp [hm]), if_pos hc]⟩
    by_cases hl : strides.length = ds.length
    · exact .inr (importPlanes_settled hm hc hl width height format w)
    · exact .inl ⟨_, by rw [importFrom, importPlanes, if_neg (by simp [hm]), if_neg hc, if_pos hl]⟩
  · exact .inl ⟨_, by rw [importFrom, importPlanes, if_pos (by simp [hm])]⟩

/-- An import of several planes is refused for its layout, for the number of its descriptors and for
that of its strides, in this order and without asking the driver; else it is settled by the answers
to the conversions. -/
theorem importFrom_planes_settled (D : Driver σ ι) (ds : List Dmabuf) (strides : List UInt32)
    (width height : UInt32) (format : FormatCode) (modifier : Modifier) (w : World σ) :
    let made := importFrom D (.planes ds strides width height format modifier) w
    if modifier ≠ .linear ∧ modifier ≠ .invalid then
      made = (.error (.invalidArgument .unsupportedLayout), w)
    else if ds.length = 0 ∨ 3 < ds.length then
      made = (.error (.invalidArgument .planeCountOutOfRange), w)
    else if strides.length ≠ ds.length then
      made = (.error (.invalidArgument .strideCountMismatch), w)
    else PlanesSettled D ds strides width height format w made := by
  have htrivial : modifier.isTrivial ↔ ¬(modifier ≠ .linear ∧ modifier ≠ .invalid) := by
    simp only [Modifier.isTrivial, Bool.or_eq_true, decide_eq_true_eq]
    tauto
  intro made
  split
  · next hm => exact if_pos (by simpa using mt htrivial.mp (not_not_intro hm))
  · next hm =>
    replace hm := htrivial.mpr hm
    split
    · next hc => exact (if_neg (by simp [hm])).trans (if_pos hc)
    · next hc =>
      split
      · next hl => exact (if_neg (by simp [hm])).trans ((if_neg hc).trans (if_pos hl))
      · next hl => exact importPlanes_settled hm hc (of_not_not hl) width height format w

end BufferObject
end DisplayBuffers
