import DisplayBuffers.Proofs.Whereabouts

/-! The outline of a surface: its size, its format, its usage and which slot is the front.
Operations that work on what is in the slots, or on anything else, leave the outlines of all
surfaces as they are. -/
namespace DisplayBuffers
variable {σ ι : Type} {D : Driver σ ι}

namespace Surface

/-- A surface without what its slots hold. -/
def outline (x : Surface) : Surface := { x with slots := .replicate _ none }

theorem outline_withSlot (x : Surface) (i : Nat) (o : Option BufferObject) :
    (x.withSlot i o).outline = x.outline := rfl

theorem outline_clear (D : Driver σ ι) (x : Surface) (i : Nat) (w : World σ) :
    (x.clear D i w).1.outline = x.outline := by
  rcases x.clear_cases D i w with ⟨_, hc⟩ | ⟨old, _, hc⟩
  · rw [hc]
  · rw [hc, outline_withSlot]

theorem outline_replace (D : Driver σ ι) (x : Surface) (i : Nat) (y : Option SlotBuffer)
    (w : World σ) : (x.replace D i y w).2.1.outline = x.outline := by
  rw [replace]
  split
  · cases y <;> exact outline_clear D x i w
  · rfl

theorem outline_allocate (D : Driver σ ι) (x : Surface) (i : Nat) (w : World σ) :
    (x.allocate D i w).2.1.outline = x.outline := by
  rw [allocate]
  split
  · dsimp only
    split <;> exact outline_clear D x i w
  · rfl

theorem outline_lockFront (x : Surface) : x.lockFront.2.outline = x.outline := by
  rw [lockFront]
  split
  · rfl
  · split <;> rfl

end Surface

namespace Session

/-- The outline of a surface, if there is such a surface. -/
def outline? (s : Session σ) (surface : String) : Option Surface :=
  (s.surfaces.find? surface).map (·.outline)

/-- Whether an operation can change the outline of a surface. -/
def Op.Refronts (surface : String) : Op ι → Prop
  | .setFront name _ | .createSurface name _ _ _ _ | .destroySurface name => name = surface
  | _ => False

section
variable (s : Session σ) (surface : String)

theorem frontIndex?_eq_outline : s.frontIndex? surface = (s.outline? surface).bind (·.front) := by
  rw [frontIndex?, outline?]
  cases s.surfaces.find? surface <;> rfl

theorem outline?_insert (w : World σ) (m : String) (x : Surface) :
    outline? { s with world := w, surfaces := s.surfaces.insert m x } surface =
      if surface = m then some x.outline else s.outline? surface := by
  simp only [outline?, Table.find?_insert]
  split <;> rfl

theorem outline?_onObject (t : Target)
    (f : BufferObject → World σ → Answer × BufferObject × World σ) :
    (s.onObject t f).2.outline? surface = s.outline? surface := by
  cases t with
  | object name =>
    rw [onObject]
    split <;> rfl
  | slot m i =>
    rw [onObject]
    split
    · rfl
    · next x hx =>
      split
      · rfl
      · dsimp only
        rw [outline?_insert, Surface.outline_withSlot]
        split
        · next hm => simp [outline?, hm, hx]
        · rfl

theorem outline?_onSurface {m : String} {f : Surface → World σ → Answer × Surface × World σ}
    (hf : ∀ x, (f x s.world).2.1.outline = x.outline) :
    (s.onSurface m f).2.outline? surface = s.outline? surface := by
  rw [onSurface]
  split
  · rfl
  · next x hx =>
    dsimp only
    rw [outline?_insert, hf]
    split
    · next hm => simp [outline?, hm, hx]
    · rfl

theorem outline?_onSurface_of_ne {m : String} (h : surface ≠ m)
    (f : Surface → World σ → Answer × Surface × World σ) :
    (s.onSurface m f).2.outline? surface = s.outline? surface := by
  rw [onSurface]
  split
  · rfl
  · dsimp only
    rw [outline?_insert, if_neg h]

end

private theorem outline?_onDevice {s : Session σ} {f : Session σ → Outcome × Session σ}
    {surface : String} (h : (f s).2.outline? surface = s.outline? surface) :
    (s.onDevice f).2.outline? surface = s.outline? surface := by
  rw [onDevice]
  split
  · exact h
  · rfl

private theorem outline?_addObject (s : Session σ) (surface name : String)
    (made : Except Error BufferObject × World σ) :
    (s.addObject D name made).2.outline? surface = s.outline? surface := by
  obtain ⟨_ | b, w⟩ := made <;> rfl

theorem outline?_step (s : Session σ) {op : Op ι} {surface : String}
    (h : ¬ op.Refronts surface) :
    (s.step D op).2.outline? surface = s.outline? surface := by
  cases op with
  | close name =>
    simp only [step]
    split <;> rfl
  | readMemory name offset count =>
    simp only [step]
    split <;> rfl
  | deviceName => exact outline?_onDevice rfl
  | supportsFormat format usage => exact outline?_onDevice rfl
  | layoutPlanes format modifier => exact outline?_onDevice rfl
  | create name width height format usage =>
    exact outline?_onDevice (outline?_addObject _ _ _ _)
  | createBuffer name width height fourcc modifiers =>
    exact outline?_onDevice (outline?_addObject _ _ _ _)
  | importFrom name source =>
    refine outline?_onDevice ?_
    split
    · rfl
    · exact outline?_addObject _ _ _ _
  | createSurface name width height format usage =>
    refine outline?_onDevice ?_
    split
    · rfl
    · rw [keepSurface, outline?_insert, if_neg (fun hm => h hm.symm)]
      rfl
  | exportHandle handle flags name =>
    refine outline?_onDevice ?_
    split <;> rfl
  | importDescriptor name =>
    refine outline?_onDevice ?_
    split
    · rfl
    · split <;> rfl
  | destroyDevice => exact outline?_onDevice rfl
  | share u name =>
    simp only [step, shareObject]
    split
    · exact s.outline?_onObject surface u _
    · exact s.outline?_onObject surface u _
  | saveId u name =>
    simp only [step, saveId]
    split
    · exact s.outline?_onObject surface u _
    · exact s.outline?_onObject surface u _
  | destroy name =>
    simp only [step]
    split <;> rfl
  | inspectSurface m => exact s.outline?_onSurface surface fun x => rfl
  | replace m i buffer =>
    rw [step]
    rcases s.replace_cases D m i buffer with hs | ⟨y, descriptors, hs⟩
    · rw [hs, refuse]
    · rw [hs]
      exact outline?_onSurface _ surface fun x => x.outline_replace D i y s.world
  | allocate m i =>
    refine s.outline?_onSurface surface fun x => ?_
    rw [← x.outline_allocate D i s.world]
    rcases x.allocate D i s.world with ⟨_ | _, x', w⟩ <;> rfl
  | setFront m front => exact s.outline?_onSurface_of_ne surface (fun hm => h hm.symm) _
  | lockFront m name =>
    simp only [step, lockFront]
    split
    · exact s.outline?_onSurface surface fun x => x.outline_lockFront
    · exact s.outline?_onSurface surface fun x => x.outline_lockFront
  | unlock m name =>
    simp only [step]
    split
    · rfl
    · exact s.outline?_onSurface surface fun x => rfl
  | destroySurface m =>
    simp only [step]
    split
    · rfl
    · simp only [reply, outline?, Table.find?_erase, if_neg (fun hm => h (Eq.symm hm))]
  | outside i => rfl
  | receive name => rfl
  | newMemory name length => rfl
  | _ => exact s.outline?_onObject surface _ _

end Session
end DisplayBuffers
