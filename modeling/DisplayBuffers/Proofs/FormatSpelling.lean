import DisplayBuffers.Proofs.Attribution
import DisplayBuffers.Proofs.Construction
import DisplayBuffers.Proofs.InvalidInput

/-! The spelling of formats. Operations look at a format code through its canonical form alone, and
at a usage through two of its bits. Two sessions whose requests differ in nothing else cannot be
told apart, and what a device says about a code is what it does when it is asked for a buffer. -/
namespace DisplayBuffers
variable {σ ι : Type} {D : Driver σ ι}

namespace FormatCode

theorem canonical_code (f : PixelFormat) : f.code.canonical = f.code := by
  cases f <;> decide

theorem canonical_idempotent (c : FormatCode) : c.canonical.canonical = c.canonical := by
  by_cases h₀ : c = 0
  · have h : c.canonical = PixelFormat.xrgb8888.code := if_pos h₀
    rw [h, canonical_code]
  · by_cases h₁ : c = 1
    · have h : c.canonical = PixelFormat.argb8888.code := by simp [canonical, h₁]
      rw [h, canonical_code]
    · have h : c.canonical = c := by simp [canonical, h₀, h₁]
      rw [h, h]

end FormatCode

namespace PixelFormat
variable {c c' : FormatCode}

theorem ofCode?_congr (h : c.canonical = c'.canonical) : ofCode? c = ofCode? c' := by
  rw [ofCode?, ofCode?, h]

/-- The format that a code names has the code's canonical form as its own. -/
theorem code_of_ofCode? {f : PixelFormat} (h : ofCode? c = some f) : f.code = c.canonical := by
  rw [ofCode?] at h
  split at h
  · next hc =>
    obtain rfl := Option.some.inj h
    exact hc.symm
  · split at h
    · next hc =>
      obtain rfl := Option.some.inj h
      exact hc.symm
    · cases h

end PixelFormat

/-- Usages that ask for the same kind of buffer, mapped at once or not. -/
structure Usage.Agree (u u' : Usage) : Prop where
  cursor : u.contains .cursor = u'.contains .cursor
  write : u.contains .write = u'.contains .write

/-- Sources of an import that differ in the spelling of the format at most. -/
inductive ImportSource.Respelled {δ : Type} : ImportSource δ → ImportSource δ → Prop
  | none : Respelled (.external none) (.external none)
  | external (r : SharedBuffer) {c : FormatCode} (h : r.format.canonical = c.canonical) :
      Respelled (.external (some r)) (.external (some { r with format := c }))
  | descriptor (d : δ) (width height stride : UInt32) {c c' : FormatCode}
      (h : c.canonical = c'.canonical) :
      Respelled (.descriptor d width height stride c) (.descriptor d width height stride c')
  | planes (ds : List δ) (strides : List UInt32) (width height : UInt32) (m : Modifier)
      {c c' : FormatCode} (h : c.canonical = c'.canonical) :
      Respelled (.planes ds strides width height c m) (.planes ds strides width height c' m)

/-- Operations that differ at most in the spelling of formats and, where they create a buffer object
or ask whether that is possible, in bits of the usage that are of no account. -/
inductive Session.Op.Respelled : Op ι → Op ι → Prop
  | same (op : Op ι) : Respelled op op
  | supportsFormat (u u' : Usage) {c c' : FormatCode} (h : c.canonical = c'.canonical) :
      Respelled (.supportsFormat c u) (.supportsFormat c' u')
  | create (name : String) (width height : UInt32) {c c' : FormatCode} {u u' : Usage}
      (h : c.canonical = c'.canonical) (hu : u.Agree u') :
      Respelled (.create name width height c u) (.create name width height c' u')
  | importFrom (name : String) {source source' : ImportSource String}
      (h : source.Respelled source') :
      Respelled (.importFrom name source) (.importFrom name source')
  | createSurface (name : String) (width height : UInt32) (u : Usage) {c c' : FormatCode}
      (h : c.canonical = c'.canonical) :
      Respelled (.createSurface name width height c u) (.createSurface name width height c' u)

section Respelling
variable {c c' : FormatCode} {width height : UInt32}

namespace BufferObject

theorem create_respelled {u u' : Usage} (h : c.canonical = c'.canonical) (hu : u.Agree u')
    (w : World σ) : create D width height c u w = create D width height c' u' w := by
  simp only [create, BufferKind.ofUsage, PixelFormat.ofCode?_congr h, hu.cursor, hu.write]

theorem importFrom_respelled {source source' : ImportSource Dmabuf} (h : source.Respelled source')
    (w : World σ) : importFrom D source w = importFrom D source' w := by
  cases h with
  | none => rfl
  | external r h => simp only [importFrom, importExternal, h]
  | descriptor d width height stride h => simp only [importFrom, h]
  | planes ds strides width height m h => simp only [importFrom, importPlanes, h]

end BufferObject

theorem Surface.create_respelled {u : Usage} (h : c.canonical = c'.canonical) :
    create width height c u = create width height c' u := by
  simp only [create, PixelFormat.ofCode?_congr h]

/-- The same descriptors are named, so that either both are known or neither is. -/
theorem ImportSource.resolve?_respelled {δ ε : Type} (f : δ → Option ε)
    {source source' : ImportSource δ} (h : source.Respelled source') :
    (source.resolve? f = none ∧ source'.resolve? f = none) ∨
      ∃ x x', source.resolve? f = some x ∧ source'.resolve? f = some x' ∧ x.Respelled x' := by
  cases h with
  | none => exact .inr ⟨_, _, rfl, rfl, .none⟩
  | external r h => exact .inr ⟨_, _, rfl, rfl, .external r h⟩
  | descriptor d width height stride h =>
    simp only [resolve?]
    cases f d with
    | none => exact .inl ⟨rfl, rfl⟩
    | some d => exact .inr ⟨_, _, rfl, rfl, .descriptor d width height stride h⟩
  | planes ds strides width height m h =>
    simp only [resolve?]
    cases ds.mapM f with
    | none => exact .inl ⟨rfl, rfl⟩
    | some ds => exact .inr ⟨_, _, rfl, rfl, .planes ds strides width height m h⟩

end Respelling

namespace Session

theorem step_respelled (s : Session σ) {op op' : Op ι} (h : op.Respelled op') :
    s.step D op = s.step D op' := by
  cases h with
  | same op => rfl
  | supportsFormat u u' h =>
    simp only [step, Device.supportsFormat, PixelFormat.ofCode?_congr h]
  | create name width height h hu => simp only [step, BufferObject.create_respelled h hu]
  | importFrom name h =>
    simp only [step, onDevice]
    rcases ImportSource.resolve?_respelled s.descriptors.find? h with
      ⟨hn, hn'⟩ | ⟨x, x', hx, hx', hr⟩
    · rw [hn, hn']
    · rw [hx, hx']
      simp only [BufferObject.importFrom_respelled hr]
  | createSurface name width height u h => simp only [step, Surface.create_respelled h]

/-- One step from the same session leads to the same outcome and the same session, so that the next
respelled operation meets with the same again. -/
theorem run_respelled (s : Session σ) {ops ops' : List (Op ι)}
    (h : List.Forall₂ Op.Respelled ops ops') : s.run D ops = s.run D ops' := by
  induction h generalizing s with
  | nil => rfl
  | cons h _ ih => simp only [run, step_respelled s h, ih]

end Session

theorem Made.canonical {b : BufferObject} (h : Made D b) : b.format.canonical = b.format := by
  cases h with
  | created h =>
    cases BufferObject.created h with
    | unmapped | mapped => exact FormatCode.canonical_code _
  | imported h =>
    obtain ⟨width, height, c, planes, w₁, hb⟩ := BufferObject.importFrom_borrows h
    obtain ⟨rfl, _⟩ := Prod.mk.inj hb
    exact FormatCode.canonical_idempotent c
  | installed x y w => exact FormatCode.canonical_code _

/-- The first thing that a creation does, once it has a format, is to ask the driver for storage. -/
theorem BufferObject.create_asks (width height : UInt32) {c : FormatCode} (u : Usage)
    {f : PixelFormat} (hf : PixelFormat.ofCode? c = some f) (w : World σ) :
    ∃ r, w.events ++ [.allocate (.ofUsage u) width height f r] <+:
      (create D width height c u w).2.events := by
  rcases h : create D width height c u w with ⟨x | b, w'⟩
  · rcases create_error_logged h with ⟨hn, _⟩ | ⟨f', A, hf', hw⟩
    · cases hn.symm.trans hf
    · obtain rfl := Option.some.inj (hf'.symm.trans hf)
      refine ⟨A.allocated, ?_⟩
      rw [hw.events, createCalls, Answers.attempts, BufferKind.ofUsage]
      simp
  · obtain ⟨f', A, s, d, m, hf', hc⟩ := create_ok_logged h
    obtain rfl := Option.some.inj (hf'.symm.trans hf)
    refine ⟨A.allocated, ?_⟩
    rw [hc.events, createCalls, Answers.attempts, BufferKind.ofUsage]
    simp

namespace Session

/-- What a device that is there says about a format code, and what becomes of requests with it. -/
structure Announced (D : Driver σ ι) (s : Session σ) (c : FormatCode) (supported : Bool) :
    Prop where
  answered : ∀ u, (s.step D (.supportsFormat c u)).1.answer = .flag supported
  surfaces : ∀ name width height u,
    (s.step D (.createSurface name width height c u)).1.answer = .done ↔ supported = true
  asked : ∀ name width height u, (∃ e ∈ (s.turn D (.create name width height c u)).events,
    e.isDriverCall = true) ↔ supported = true
  first : supported = true → ∀ name width height u, ∃ f r rest, f.code = c.canonical ∧
    (s.turn D (.create name width height c u)).events =
      .allocate (.ofUsage u) width height f r :: rest
  refused : supported = false → ∀ name width height u,
    ∀ op ∈ [.create name width height c u, .createSurface name width height c u],
      s.step D op = (⟨.failed (.invalidArgument .unsupportedFormat), .nothing⟩, s)

private theorem create_turn {s : Session σ} (hd : s.device = true) {c : FormatCode}
    {f : PixelFormat} (hf : PixelFormat.ofCode? c = some f) (name : String)
    (width height : UInt32) (u : Usage) :
    ∃ r rest, (s.turn D (.create name width height c u)).events =
      .allocate (.ofUsage u) width height f r :: rest := by
  have hp : (s.step D (.create name width height c u)).2 =
      (s.addObject D name (BufferObject.create D width height c u s.world)).2 := by
    simp only [step, onDevice, hd, if_true]
  have hadd : (BufferObject.create D width height c u s.world).2.Advances
      (s.addObject D name (BufferObject.create D width height c u s.world)).2.world := by
    rcases BufferObject.create D width height c u s.world with ⟨e | b, w⟩
    · exact .refl w
    · exact (keepObject_changes (D := D) (s.withWorld w) name b).moves.advances
  obtain ⟨r, hr⟩ := BufferObject.create_asks (D := D) width height u hf s.world
  rw [← hp] at hadd
  obtain ⟨rest, hrest⟩ := hr.trans hadd.events
  refine ⟨r, rest, turn_events ?_⟩
  rw [← hrest, List.append_assoc]
  rfl

theorem announced (D : Driver σ ι) {s : Session σ} (hd : s.device = true) (c : FormatCode) :
    Announced D s c (PixelFormat.ofCode? c).isSome := by
  cases hf : PixelFormat.ofCode? c with
  | none =>
    have hrefused : ∀ name width height u,
        ∀ op ∈ [.create name width height c u, .createSurface name width height c u],
          s.step D op = (⟨.failed (.invalidArgument .unsupportedFormat), .nothing⟩, s) := by
      intro name width height u op hop
      rcases List.mem_pair.mp hop with rfl | rfl
      · simp only [step, onDevice, hd, if_true, BufferObject.create, hf]
        rfl
      · simp only [step, onDevice, hd, if_true, Surface.create, hf]
        rfl
    have hquiet : ∀ name width height u,
        (s.turn D (.create name width height c u)).events = [] := by
      intro name width height u
      refine turn_events ?_
      rw [hrefused name width height u _ (by simp), List.append_nil]
    exact {
      answered := fun u => by
        simp only [step, onDevice, hd, if_true, Device.supportsFormat, hf, reply]
      surfaces := fun name width height u => by
        rw [hrefused name width height u _ (by simp)]
        simp
      asked := fun name width height u => by
        rw [hquiet]
        simp
      first := fun h => absurd h Bool.false_ne_true
      refused := fun _ => hrefused }
  | some f =>
    exact {
      answered := fun u => by
        simp only [step, onDevice, hd, if_true, Device.supportsFormat, hf, reply]
      surfaces := fun name width height u => by
        simp only [step, onDevice, hd, if_true, Surface.create, hf]
        simp
      asked := fun name width height u => by
        obtain ⟨r, rest, h⟩ := create_turn (D := D) hd hf name width height u
        rw [h]
        simp [Event.isDriverCall]
      first := fun _ name width height u => by
        obtain ⟨r, rest, h⟩ := create_turn (D := D) hd hf name width height u
        exact ⟨f, r, rest, PixelFormat.code_of_ofCode? hf, h⟩
      refused := fun h => absurd h.symm Bool.false_ne_true }

/-- Formats are looked at through their canonical form alone. Requests that differ in the spelling
of formats, or in bits of the usage of a buffer object that are of no account, have the same
outcomes and leave the same sessions, call by call. Every object has a canonical format. A device
that is there supports a code exactly if surfaces can be made with it, and exactly if a buffer
object is asked of the driver; other codes are refused and nothing else happens. -/
theorem spelling_immaterial (D : Driver σ ι) :
    (∀ (s : Session σ) (ops ops' : List (Op ι)), List.Forall₂ Op.Respelled ops ops' →
      ∀ n, s.run D (ops.take n) = s.run D (ops'.take n)) ∧
    (∀ c : FormatCode, c.canonical.canonical = c.canonical) ∧
    (∀ d ops t b, ((start d).run D ops).2.object? t = some b → b.format.canonical = b.format) ∧
    ∀ s : Session σ, s.device = true → ∀ c, ∃ supported, Announced D s c supported := by
  refine ⟨?_, FormatCode.canonical_idempotent, ?_, ?_⟩
  · intro s ops ops' h n
    exact s.run_respelled (List.forall₂_take n h)
  · intro d ops t b h
    exact objects_keep (fun _ hm => hm.canonical) (fun _ _ _ _ hb => hb) d ops h
  · intro s hd c
    exact ⟨_, announced D hd c⟩

end Session
end DisplayBuffers
