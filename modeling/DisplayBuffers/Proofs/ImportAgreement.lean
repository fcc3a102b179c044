import DisplayBuffers.Proofs.Twins
import DisplayBuffers.Simulation.MemoryDriver

/-! The ways of importing agree. A descriptor by itself, the same as the only plane, and a resource
of the sharing layer with the handle that the driver gives for it make objects that are equal in
everything but the id, and that cannot be told apart afterwards. -/
namespace DisplayBuffers
variable {σ ι : Type} {D : Driver σ ι}

theorem World.asking_singleton (w : World σ) (D : Driver σ ι) (d : Dmabuf) :
    w.asking D [d] = (w.importDescriptor D d).2 := by
  rw [asking_cons, asking_nil]

namespace BufferObject

/-- What comes of importing a descriptor as the only plane in one world, and by itself in another
one with the same driver. The driver is asked once either way. If it refuses, its refusal is the
error; otherwise the objects have the handle that it answers, and differ in the id at most. -/
inductive Agreed (D : Driver σ ι) (d : Dmabuf) (w w' : World σ) :
    Except Error BufferObject × World σ → Except Error BufferObject × World σ → Prop
  | refused {c} (answered : (D.importDescriptor d w.driver).1 = .error c) :
      Agreed D d w w' (.error (.allocation .importPlane c), w.asking D [d])
        (.error (.allocation .importDescriptor c), w'.asking D [d])
  | accepted {handle b} (answered : (D.importDescriptor d w.driver).1 = .ok handle)
      (held : b.handle = handle) (numbered : b.id = w.freshId.1) :
      Agreed D d w w' (.ok b, (w.asking D [d]).freshId.2.hold)
        (.ok { b with id := w'.freshId.1 }, (w'.asking D [d]).freshId.2.hold)

section
variable {w w' w₁ : World σ} {width height stride : UInt32} {c c' : FormatCode} {m : Modifier}

theorem importFrom_agreed (d : Dmabuf) (hw : w'.driver = w.driver) (hm : m.isTrivial)
    (hc : c'.canonical = c.canonical) :
    Agreed D d w w' (importFrom D (.planes [d] [stride] width height c m) w)
      (importFrom D (.descriptor d width height stride c') w') := by
  have hanswer : (D.importDescriptor d w'.driver).1 = (D.importDescriptor d w.driver).1 := by
    rw [hw]
  have hworld (w : World σ) : w.importDescriptor D d =
      ((D.importDescriptor d w.driver).1, w.asking D [d]) :=
    Prod.ext rfl (w.asking_singleton D d).symm
  change Agreed D d w w' (importPlanes D [d] [stride] width height c m w) _
  rw [importPlanes, if_neg (by simp [hm]), if_neg (by simp [maxPlanes]), if_neg (by simp),
    List.zip_cons_cons, List.zip_nil_left]
  simp only [importFrom, convertPlanes, hworld, hanswer, hc]
  cases ha : (D.importDescriptor d w.driver).1 with
  | error x => exact .refused ha
  | ok handle => exact .accepted ha rfl rfl

/-- A resource that is no buffer of several planes has the plane of its handle and its stride. -/
theorem importFrom_external_of_single {r : SharedBuffer} (h : r.planes.length ≤ 1) (w : World σ) :
    importFrom D (.external (some r)) w = (.ok (borrow r.width r.height r.format.canonical
      [⟨r.handle, r.stride⟩] none none w).1, w.freshId.2.hold) := by
  have hmax : ¬ maxPlanes < r.planes.length := by
    rw [maxPlanes]
    omega
  simp only [importFrom, importExternal, if_neg hmax, if_neg (not_lt_of_ge h)]
  rfl

theorem importFrom_external_of_descriptor {d : Dmabuf} {b : BufferObject}
    (h : importFrom D (.descriptor d width height stride c) w = (.ok b, w₁))
    (hc : c'.canonical = c.canonical) {planes : List Plane} (hp : planes.length ≤ 1)
    (w' : World σ) :
    importFrom D (.external (some ⟨width, height, c', stride, b.handle, planes⟩)) w' =
      (.ok { b with id := w'.freshId.1 }, w'.freshId.2.hold) := by
  simp only [importFrom] at h
  split at h
  · cases h
  · obtain ⟨hb, -⟩ := Prod.mk.inj h
    obtain rfl := Except.ok.inj hb
    rw [importFrom_external_of_single hp]
    dsimp only
    rw [hc]
    rfl

theorem importFrom_external_of_plane {d : Dmabuf} {b : BufferObject} (hm : m.isTrivial)
    (h : importFrom D (.planes [d] [stride] width height c m) w = (.ok b, w₁))
    (hc : c'.canonical = c.canonical) {planes : List Plane} (hp : planes.length ≤ 1)
    (w' : World σ) :
    importFrom D (.external (some ⟨width, height, c', stride, b.handle, planes⟩)) w' =
      (.ok { b with id := w'.freshId.1 }, w'.freshId.2.hold) := by
  have hagreed : Agreed D d w w (importFrom D (.planes [d] [stride] width height c m) w)
      (importFrom D (.descriptor d width height stride c) w) := importFrom_agreed d rfl hm rfl
  rw [h] at hagreed
  generalize hq : importFrom D (.descriptor d width height stride c) w = made at hagreed
  cases hagreed with
  | accepted => exact importFrom_external_of_descriptor hq hc hp w'

/-- Conversions that succeed give planes of the handles that are answered. -/
theorem convertPlanes_of_answers {planes : List Plane} {ds : List Dmabuf} {w : World σ}
    (h : D.answers ds w.driver = planes.map fun p => .ok p.handle) :
    convertPlanes D (ds.zip (planes.map (·.stride))) w = (.ok planes, w.asking D ds) := by
  induction ds generalizing planes w with
  | nil =>
    obtain _ | ⟨p, planes⟩ := planes
    · rw [World.asking_nil]
      rfl
    · cases h
  | cons d ds ih =>
    obtain _ | ⟨p, planes⟩ := planes
    · cases h
    obtain ⟨hfirst, hrest⟩ := List.cons.inj h
    have hq : w.importDescriptor D d = (.ok p.handle, (w.importDescriptor D d).2) :=
      Prod.ext hfirst rfl
    rw [List.map_cons, List.zip_cons_cons, convertPlanes, hq]
    dsimp only
    rw [ih hrest, World.asking_cons]

/-- A resource of several planes is like the import of planes that are converted to it. -/
theorem importFrom_planes_external {r : SharedBuffer} {ds : List Dmabuf} (hm : m.isTrivial)
    (hc : c.canonical = r.format.canonical) (hl : 1 < r.planes.length)
    (hu : r.planes.length ≤ maxPlanes)
    (ha : D.answers ds w.driver = r.planes.map fun p => .ok p.handle) :
    ∃ b, importFrom D (.planes ds (r.planes.map (·.stride)) r.width r.height c m) w =
        (.ok b, (w.asking D ds).freshId.2.hold) ∧
      ∀ w', importFrom D (.external (some r)) w' =
        (.ok { b with id := w'.freshId.1 }, w'.freshId.2.hold) := by
  have hlength : ds.length = r.planes.length := by
    rw [← D.length_answers ds w.driver, ha, List.length_map]
  refine ⟨(borrow r.width r.height r.format.canonical r.planes none none w).1, ?_, fun w' => ?_⟩
  · change importPlanes D ds _ r.width r.height c m w = _
    rw [importPlanes, if_neg (by simp [hm]), if_neg (by omega), if_neg (by simp [hlength]),
      convertPlanes_of_answers ha, hc]
    rfl
  · simp only [importFrom, importExternal]
    rw [if_neg (by omega), if_pos hl]
    rfl

end

end BufferObject

namespace Session
open BufferObject (Agreed importFrom importFrom_agreed importFrom_external_of_plane
  importFrom_external_of_descriptor importFrom_planes_external)
variable {width height stride : UInt32} {c c' : FormatCode} {m : Modifier}

theorem step_import_agreed (s : Session σ) (name n : String) (hm : m.isTrivial)
    (hc : c'.canonical = c.canonical) :
    let e := s.step D (.importFrom name (.planes [n] [stride] width height c m))
    let e' := s.step D (.importFrom name (.descriptor n width height stride c'))
    e.2 = e'.2 ∧ (e.1 = e'.1 ∨ ∃ x, e.1 = ⟨.failed (.allocation .importPlane x), .nothing⟩ ∧
      e'.1 = ⟨.failed (.allocation .importDescriptor x), .nothing⟩) := by
  simp only [step, onDevice]
  cases s.device with
  | false => exact ⟨rfl, .inl rfl⟩
  | true =>
    cases hd : s.descriptors.find? n with
    | none => simp [ImportSource.resolve?, hd]
    | some d =>
      have hagreed : Agreed D d s.world s.world
          (importFrom D (.planes [d] [stride] width height c m) s.world)
          (importFrom D (.descriptor d width height stride c') s.world) :=
        importFrom_agreed d rfl hm hc
      have hplanes : (ImportSource.planes [n] [stride] width height c m).resolve?
          s.descriptors.find? = some (.planes [d] [stride] width height c m) := by
        simp [ImportSource.resolve?, hd]
      have hdescriptor : (ImportSource.descriptor n width height stride c').resolve?
          s.descriptors.find? = some (.descriptor d width height stride c') := by
        simp [ImportSource.resolve?, hd]
      simp only [hplanes, hdescriptor, if_true]
      generalize importFrom D (.planes [d] [stride] width height c m) s.world = made at hagreed ⊢
      generalize importFrom D (.descriptor d width height stride c') s.world = made' at hagreed ⊢
      cases hagreed with
      | refused => exact ⟨rfl, .inr ⟨_, rfl, rfl⟩⟩
      | @accepted handle b _ _ numbered =>
        rw [← numbered]
        exact ⟨rfl, .inl rfl⟩

/-- The ways of importing agree, whatever the driver answers, with formats in either spelling and a
layout that needs no description. A descriptor as the only plane and the same by itself take the
same call to the driver and come to the same refusal, or to objects that are equal in everything but
the id; under one name they leave the same session, so that all that follows is the same. A resource
with the handle that was obtained makes such an object once more, without a call, whatever its list
of planes says as long as it has one entry at most. A resource of two or three planes makes the
object of an import of planes that are converted to its handles and have its strides. Two objects of
a client that are equal in everything but the id, and whose ids it has not saved, cannot be told
apart by anything that is done afterwards; among those that were imported in a row all that are
equal in everything but the id are such. -/
theorem imports_agree (D : Driver σ ι) (width height stride : UInt32) (c c' c'' : FormatCode)
    (m : Modifier) (hm : m.isTrivial) (hc' : c'.canonical = c.canonical)
    (hc'' : c''.canonical = c.canonical) :
    let asPlane {δ : Type} (d : δ) : ImportSource δ := .planes [d] [stride] width height c m
    let byItself {δ : Type} (d : δ) : ImportSource δ := .descriptor d width height stride c'
    let shared (handle : Handle) (planes : List Plane) : SharedBuffer :=
      ⟨width, height, c'', stride, handle, planes⟩
    (∀ d w w', w'.driver = w.driver →
      Agreed D d w w' (importFrom D (asPlane d) w) (importFrom D (byItself d) w')) ∧
    (∀ (s : Session σ) name n,
      let e := s.step D (.importFrom name (asPlane n))
      let e' := s.step D (.importFrom name (byItself n))
      e.2 = e'.2 ∧ (e.1 = e'.1 ∨ ∃ x, e.1 = ⟨.failed (.allocation .importPlane x), .nothing⟩ ∧
        e'.1 = ⟨.failed (.allocation .importDescriptor x), .nothing⟩)) ∧
    (∀ d w b w₁, importFrom D (asPlane d) w = (.ok b, w₁) ∨
        importFrom D (byItself d) w = (.ok b, w₁) →
      ∀ planes w', planes.length ≤ 1 →
        importFrom D (.external (some (shared b.handle planes))) w' =
          (.ok { b with id := w'.freshId.1 }, w'.freshId.2.hold)) ∧
    (∀ planes ds handle w, 1 < planes.length → planes.length ≤ 3 →
      D.answers ds w.driver = planes.map (fun p => .ok p.handle) →
      ∃ b, importFrom D (.planes ds (planes.map (·.stride)) width height c m) w =
          (.ok b, (w.asking D ds).freshId.2.hold) ∧
        ∀ w', importFrom D (.external (some (shared handle planes))) w' =
          (.ok { b with id := w'.freshId.1 }, w'.freshId.2.hold)) ∧
    ∀ (d : σ) (ops : List (Op ι)),
      let s := ((start d).run D ops).2
      (∀ a x b y, s.objects.find? a = some x → s.objects.find? b = some y →
        y = { x with id := y.id } →
        (∀ name id, s.ids.find? name = some id → id ≠ x.id ∧ id ≠ y.id) →
        s.Interchangeable D a b x.id y.id) ∧
      ∀ (imports : List (String × ImportSource String)) (objects : List BufferObject),
        let s' := s.run D (importing imports)
        let named := (imports.map Prod.fst).zip objects
        (imports.map Prod.fst).Nodup → s'.1 = objects.map (fun x => ⟨.done, .object x⟩) →
        ∀ a x b y, (a, x) ∈ named → (b, y) ∈ named → y = { x with id := y.id } →
          s'.2.Interchangeable D a b x.id y.id := by
  intro asPlane byItself shared
  refine ⟨fun d w w' hw => importFrom_agreed d hw hm hc',
    fun s name n => s.step_import_agreed name n hm hc', fun d w b w₁ h planes w' hp => ?_,
    fun planes ds handle w hl hu ha =>
      importFrom_planes_external (r := shared handle planes) hm hc''.symm hl hu ha,
    fun d ops => ⟨fun a x b y ha hb => interchangeable_of_twins ((apart_start d).run ops) ha hb D
      (discreet_run D d ops), fun imports objects hn h a x b y ha hb =>
        interchangeable_of_imports D d ops hn h ha hb⟩⟩
  rcases h with h | h
  · exact importFrom_external_of_plane hm h hc'' hp w'
  · exact importFrom_external_of_descriptor h (hc''.trans hc'.symm) hp w'

/-- A descriptor is imported as a plane, and the handle that comes of it twice more. -/
theorem triplets_imported :
    let D := Simulation.Machine.driver
    let s := ((start (Simulation.Machine.fresh 1 "")).run D [.receive "fd"]).2
    let s' := s.run D (importing [("a", .planes ["fd"] [16] 4 4 0 .linear),
      ("b", .external (some ⟨4, 4, PixelFormat.xrgb8888.code, 16, ⟨1⟩, []⟩)),
      ("c", .external (some ⟨4, 4, 0, 16, ⟨1⟩, [⟨⟨7⟩, 9⟩]⟩))])
    Modifier.linear.isTrivial ∧ PixelFormat.xrgb8888.code.canonical = FormatCode.canonical 0 ∧
      ∃ x y z, s'.1 = [⟨.done, .object x⟩, ⟨.done, .object y⟩, ⟨.done, .object z⟩] ∧
        s'.2.Interchangeable D "a" "b" x.id y.id ∧ s'.2.Interchangeable D "a" "c" x.id z.id ∧
        s'.2.Interchangeable D "b" "c" y.id z.id := by
  intro D s s'
  obtain ⟨-, -, -, -, h⟩ := imports_agree D 4 4 16 0 PixelFormat.xrgb8888.code 0 .linear rfl rfl rfl
  obtain ⟨x, y, z, hanswers, hy, hz⟩ : ∃ x y z, s'.1 =
      [⟨.done, .object x⟩, ⟨.done, .object y⟩, ⟨.done, .object z⟩] ∧
      y = { x with id := y.id } ∧ z = { x with id := z.id } := ⟨_, _, _, rfl, rfl, rfl⟩
  have htriplets := (h (Simulation.Machine.fresh 1 "") [.receive "fd"]).2 _ [x, y, z] (by decide)
    hanswers
  refine ⟨rfl, rfl, x, y, z, hanswers, ?_, ?_, ?_⟩
  · exact htriplets "a" x "b" y (by simp) (by simp) hy
  · exact htriplets "a" x "c" z (by simp) (by simp) hz
  · exact htriplets "b" y "c" z (by simp) (by simp) (by rw [hy, hz])

end Session
end DisplayBuffers
