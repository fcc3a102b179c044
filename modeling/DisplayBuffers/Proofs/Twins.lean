import DisplayBuffers.Proofs.Mentions
import DisplayBuffers.Proofs.Renaming

/-! Buffer objects that are equal in everything but the id cannot be told apart. Whatever a client
does with one it can do with the other, and it makes no difference but that of their ids. -/
namespace DisplayBuffers
variable {σ ι : Type} {D : Driver σ ι}

theorem Surface.relabel_eq_self {π : Equiv.Perm BufferId} {x : Surface}
    (h : ∀ i b, x.slot? i = some b → π b.id = b.id) : x.relabel π = x := by
  have hslots : x.slots.map (Option.map (BufferObject.relabel π)) = x.slots := by
    refine Vector.ext fun i hi => ?_
    rw [Vector.getElem_map]
    cases hb : x.slots[i] with
    | none => rfl
    | some b =>
      have hid := h i b (by simp [slot?, hi, hb])
      rw [Option.map_some, BufferObject.relabel, hid]
  rw [relabel, hslots]

namespace Session

/-- Two objects of a client that cannot be told apart. Whatever is done, when one of them is used
for the other throughout, the outcomes are the same and so is what they come to, but that the two
names are exchanged, and the two ids. -/
structure Interchangeable (D : Driver σ ι) (s : Session σ) (a b : String) (x y : BufferId) :
    Prop where
  outcomes : ∀ ops : List (Op ι), (s.run D (ops.map (·.rename (Equiv.swap a b)))).1 =
    (s.run D ops).1.map (·.relabel (Equiv.swap x y))
  sessions : ∀ ops : List (Op ι), Renamed (Equiv.swap a b) (Equiv.swap x y) (s.run D ops).2
    (s.run D (ops.map (·.rename (Equiv.swap a b)))).2

section
variable {s : Session σ} {a b : String} {x y : BufferObject} (hs : s.Apart)
  (ha : s.objects.find? a = some x) (hb : s.objects.find? b = some y)
include hs ha hb

theorem fixes_of_twins : Fixes (Equiv.swap x.id y.id) s.world.identities := by
  intro m hm
  have hx : x.id.number < s.world.identities := hs.numbered (t := .object a) ha
  have hy : y.id.number < s.world.identities := hs.numbered (t := .object b) hb
  refine Equiv.swap_apply_of_ne_of_ne (fun h => ?_) fun h => ?_
  · rw [← h] at hx
    exact absurd hx (not_lt_of_ge hm)
  · rw [← h] at hy
    exact absurd hy (not_lt_of_ge hm)

/-- To exchange two objects that are equal in everything but the id leaves a session as it is. -/
theorem renamed_of_twins (hd : s.Discreet) (hxy : y = { x with id := y.id })
    (hsaved : ∀ name id, s.ids.find? name = some id → id ≠ x.id ∧ id ≠ y.id) :
    Renamed (Equiv.swap a b) (Equiv.swap x.id y.id) s s := by
  obtain ⟨i, rfl⟩ : ∃ i, y = { x with id := i } := ⟨y.id, hxy⟩
  have hother {t : Target} {o : BufferObject} (ho : s.object? t = some o) (hta : t ≠ .object a)
      (htb : t ≠ .object b) : Equiv.swap x.id i o.id = o.id :=
    Equiv.swap_apply_of_ne_of_ne (fun h => hta (hs.named ho ha h))
      fun h => htb (hs.named ho hb h)
  refine ⟨?_, rfl, fun name => ?_, fun name => ?_, rfl, rfl, fun name => ?_⟩
  · refine (World.relabel_eq_self fun id hid => ?_).symm
    exact Equiv.swap_apply_of_ne_of_ne (fun h => hd.untold (t := .object a) ha (h ▸ hid))
      fun h => hd.untold (t := .object b) hb (h ▸ hid)
  · by_cases hna : name = a
    · subst hna
      rw [Equiv.swap_apply_left, ha, hb, Option.map_some, BufferObject.relabel,
        Equiv.swap_apply_left]
    by_cases hnb : name = b
    · subst hnb
      rw [Equiv.swap_apply_right, ha, hb, Option.map_some, BufferObject.relabel,
        Equiv.swap_apply_right]
    rw [Equiv.swap_apply_of_ne_of_ne hna hnb]
    cases ho : s.objects.find? name with
    | none => rfl
    | some o =>
      have hid := hother (t := .object name) ho (fun h => hna (Target.object.inj h))
        fun h => hnb (Target.object.inj h)
      rw [Option.map_some, BufferObject.relabel, hid]
  · cases hx : s.surfaces.find? name with
    | none => rfl
    | some z =>
      rw [Option.map_some, Surface.relabel_eq_self fun j o ho => ?_]
      refine hother (t := .slot name j) ?_ (by simp) (by simp)
      rw [object?, hx, Option.bind_some, ho]
  · cases hid : s.ids.find? name with
    | none => rfl
    | some id =>
      obtain ⟨hx, hy⟩ := hsaved name id hid
      rw [Option.map_some, Equiv.swap_apply_of_ne_of_ne hx hy]

theorem interchangeable_of_twins (D : Driver σ ι) (hd : s.Discreet)
    (hxy : y = { x with id := y.id })
    (hsaved : ∀ name id, s.ids.find? name = some id → id ≠ x.id ∧ id ≠ y.id) :
    s.Interchangeable D a b x.id y.id :=
  have hrenamed := renamed_of_twins hs ha hb hd hxy hsaved
  have hfixes := fixes_of_twins hs ha hb
  ⟨fun ops => (hrenamed.run hfixes ops).1, fun ops => (hrenamed.run hfixes ops).2⟩

end

section Imports
variable {s : Session σ}

/-- What an import that is done answers is a new object, and is found under the name. -/
theorem imported_step {name : String} {source : ImportSource String} {x : BufferObject}
    (h : (s.step D (.importFrom name source)).1 = ⟨.done, .object x⟩) :
    (s.step D (.importFrom name source)).2.objects.find? name = some x ∧
      s.world.identities ≤ x.id.number := by
  simp only [step, onDevice] at h ⊢
  split at h
  · next hd =>
    rw [if_pos hd]
    split at h
    · cases h
    · next source' hsource =>
      have hobject := object?_addObject (D := D) s (t := .object name) name
        (BufferObject.importFrom D source' s.world)
      rcases hq : BufferObject.importFrom D source' s.world with ⟨e | b, w⟩ <;> rw [hq] at h hobject
      · cases h
      · obtain ⟨-, hb⟩ := Outcome.mk.inj h
        obtain rfl := Subject.object.inj hb
        exact ⟨hobject.trans (if_pos rfl), (BufferObject.importFrom_newborn hq).1.above⟩
  · cases h

theorem object?_importFrom_of_ne {name n : String} (hn : n ≠ name)
    (source : ImportSource String) :
    (s.step D (.importFrom name source)).2.objects.find? n = s.objects.find? n := by
  have hrenews : ¬ (.importFrom name source : Op ι).Renews (.object n) :=
    fun h => hn (Target.object.inj h)
  have h := object?_step_of_not_renews (D := D) s hrenews
  exact h.trans (Option.map_id' ..)

/-- Imports in a row. -/
def importing (imports : List (String × ImportSource String)) : List (Op ι) :=
  imports.map fun i => .importFrom i.1 i.2

/-- After imports under different names that were all done, the objects are there, and no id has
been saved in between. -/
theorem imported_run {imports : List (String × ImportSource String)} {objects : List BufferObject}
    (hn : (imports.map Prod.fst).Nodup)
    (h : (s.run D (importing imports)).1 = objects.map fun x => ⟨.done, .object x⟩) :
    (∀ p ∈ (imports.map Prod.fst).zip objects,
      (s.run D (importing imports)).2.objects.find? p.1 = some p.2 ∧
        s.world.identities ≤ p.2.id.number) ∧
      (∀ n ∉ imports.map Prod.fst,
        (s.run D (importing imports)).2.objects.find? n = s.objects.find? n) ∧
      (s.run D (importing imports)).2.ids = s.ids := by
  induction imports generalizing s objects with
  | nil => exact ⟨by simp, fun n _ => rfl, rfl⟩
  | cons i imports ih =>
    obtain ⟨name, source⟩ := i
    obtain _ | ⟨x, objects⟩ := objects
    · cases h
    obtain ⟨hx, hrest⟩ := List.cons.inj h
    obtain ⟨hname, hnodup⟩ := List.nodup_cons.mp hn
    obtain ⟨hfound, hnew⟩ := imported_step hx
    obtain ⟨hobjects, hothers, hids⟩ :=
      ih (s := (s.step D (.importFrom name source)).2) hnodup hrest
    have hadvances := (s.step_advances (D := D) (.importFrom name source)).identities
    have hsame : (s.step D (.importFrom name source)).2.ids = s.ids :=
      ids_step id
    refine ⟨fun p hp => ?_, fun n hn => ?_, ?_⟩
    · rcases List.mem_cons.mp hp with rfl | hp
      · exact ⟨(hothers name hname).trans hfound, hnew⟩
      · obtain ⟨hp, hid⟩ := hobjects p hp
        exact ⟨hp, hadvances.trans hid⟩
    · rw [List.map_cons, List.mem_cons, not_or] at hn
      exact (hothers n hn.2).trans (object?_importFrom_of_ne hn.1 source)
    · exact hids.trans hsame

/-- Objects that were imported in a row cannot be told apart if they are equal in everything but the
id. -/
theorem interchangeable_of_imports (D : Driver σ ι) (d : σ) (ops : List (Op ι))
    {imports : List (String × ImportSource String)} {objects : List BufferObject}
    (hn : (imports.map Prod.fst).Nodup)
    (h : (((start d).run D ops).2.run D (importing imports)).1 =
      objects.map fun x => ⟨.done, .object x⟩)
    {a b : String} {x y : BufferObject} (ha : (a, x) ∈ (imports.map Prod.fst).zip objects)
    (hb : (b, y) ∈ (imports.map Prod.fst).zip objects) (hxy : y = { x with id := y.id }) :
    (((start d).run D ops).2.run D (importing imports)).2.Interchangeable D a b x.id y.id := by
  obtain ⟨hobjects, -, hids⟩ := imported_run hn h
  obtain ⟨ha, hx⟩ := hobjects (a, x) ha
  obtain ⟨hb, hy⟩ := hobjects (b, y) hb
  have hdiscreet := discreet_run D d (ops ++ importing imports)
  rw [run_append] at hdiscreet
  refine interchangeable_of_twins (((apart_start d).run ops).run _) ha hb D hdiscreet hxy ?_
  intro name id hid
  rw [hids] at hid
  have hold := (discreet_run D d ops).saved hid
  exact ⟨fun h => absurd (h ▸ hold) (not_lt_of_ge hx), fun h => absurd (h ▸ hold) (not_lt_of_ge hy)⟩

end Imports

end Session
end DisplayBuffers
