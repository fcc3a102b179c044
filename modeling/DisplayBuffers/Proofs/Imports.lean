import DisplayBuffers.Proofs.Estate

/-! Creation and import as changes to what the client owns. An import needs the descriptors it is
given and leaves them where they are. -/
namespace DisplayBuffers
variable {σ ι : Type}

/-- What a result brings: one thing, or none. -/
def brought {ε α : Type} : Except ε α → Multiset α
  | .ok a => {a}
  | .error _ => 0

namespace ImportSource

def descriptors : ImportSource Dmabuf → List Dmabuf
  | .external _ => []
  | .descriptor d _ _ _ _ => [d]
  | .planes ds _ _ _ _ _ => ds

private theorem mem_of_mapM {δ ε : Type} {f : δ → Option ε} {l : List δ} {r : List ε}
    (h : l.mapM f = some r) {e : ε} (he : e ∈ r) : ∃ d, f d = some e := by
  induction l generalizing r with
  | nil =>
    obtain rfl : r = [] := by simpa using h.symm
    cases he
  | cons d l ih =>
    simp only [List.mapM_cons, Option.pure_def, Option.bind_eq_bind, Option.bind_eq_some_iff] at h
    obtain ⟨a, ha, as, has, hr⟩ := h
    obtain rfl : a :: as = r := by simpa using hr
    rcases List.mem_cons.mp he with rfl | he
    · exact ⟨d, ha⟩
    · exact ih has he

/-- A resolved source has no descriptors but those that the names stand for. -/
theorem resolve?_descriptors {δ : Type} {f : δ → Option Dmabuf} {source : ImportSource δ}
    {resolved : ImportSource Dmabuf} (h : source.resolve? f = some resolved) {d : Dmabuf}
    (hd : d ∈ resolved.descriptors) : ∃ x, f x = some d := by
  cases source with
  | external r =>
    obtain rfl := Option.some.inj h
    cases hd
  | descriptor x width height stride format =>
    obtain ⟨e, he, rfl⟩ := Option.map_eq_some_iff.mp h
    obtain rfl := List.mem_singleton.mp hd
    exact ⟨x, he⟩
  | planes xs strides width height format modifier =>
    obtain ⟨es, hes, rfl⟩ := Option.map_eq_some_iff.mp h
    exact mem_of_mapM hes hd

end ImportSource

namespace BufferObject
variable {D : Driver σ ι} (L : Multiset (Place × BufferObject)) {H : Multiset Dmabuf} {n : Nat}

theorem convertPlanes_changes {l : List (Dmabuf × UInt32)} (hl : ∀ p ∈ l, p.1 ∈ H)
    (w : World σ) : Changes D ⟨L, H, n + 1, w⟩ ⟨L, H, n + 1, (convertPlanes D l w).2⟩ := by
  induction l generalizing w with
  | nil => exact .refl
  | cons p l ih =>
    obtain ⟨d, stride⟩ := p
    have hfirst : Changes D ⟨L, H, n + 1, w⟩ ⟨L, H, n + 1, (w.importDescriptor D d).2⟩ :=
      .one (.converted (hl (d, stride) List.mem_cons_self))
    have hrest := ih (fun p hp => hl p (List.mem_cons_of_mem _ hp)) (w.importDescriptor D d).2
    refine hfirst.trans ?_
    rw [convertPlanes]
    rcases he : w.importDescriptor D d with ⟨e | handle, w₁⟩
    · exact .refl
    · rw [he] at hrest
      rcases hc : convertPlanes D l w₁ with ⟨⟨e, planes⟩ | planes, w₂⟩ <;> rw [hc] at hrest <;>
        simpa only [hc] using hrest

/-- An import that fails, at whichever plane, makes no buffer object. -/
theorem importFrom_changes {source : ImportSource Dmabuf}
    (hs : ∀ d ∈ source.descriptors, d ∈ H) (w : World σ) :
    Changes D ⟨L, H, n + 1, w⟩
      ⟨(brought (importFrom D source w).1).map (Place.own, ·) + L, H, n + 1,
        (importFrom D source w).2⟩ := by
  cases source with
  | external r =>
    simp only [importFrom, importExternal]
    split
    · simpa [brought] using Changes.refl
    · split
      · simpa [brought] using Changes.refl
      · exact .one (.imported rfl)
  | descriptor d width height stride format =>
    have hd : Changes D ⟨L, H, n + 1, w⟩ ⟨L, H, n + 1, (w.importDescriptor D d).2⟩ :=
      .one (.converted (hs d List.mem_cons_self))
    simp only [importFrom]
    refine hd.trans ?_
    rcases w.importDescriptor D d with ⟨e | handle, w₁⟩
    · simpa [brought] using Changes.refl
    · exact .one (.imported rfl)
  | planes ds strides width height format modifier =>
    have hp := convertPlanes_changes (D := D) (l := ds.zip strides) (n := n) L
      (fun p hp => hs p.1 (List.of_mem_zip hp).1) w
    simp only [importFrom, importPlanes]
    split
    · simpa [brought] using Changes.refl
    split
    · simpa [brought] using Changes.refl
    split
    · simpa [brought] using Changes.refl
    refine hp.trans ?_
    rcases convertPlanes D (ds.zip strides) w with ⟨⟨e, planes⟩ | planes, w₁⟩
    · simp only [brought, Multiset.map_zero, zero_add]
      split
      · exact .refl
      · exact .one (.warned _)
    · exact .one (.imported rfl)

theorem create_changes (p : Place) {width height : UInt32} {code : FormatCode} {usage : Usage}
    {w : World σ} :
    Changes D ⟨L, H, n + 1, w⟩
      ⟨(brought (create D width height code usage w).1).map (p, ·) + L, H, n + 1,
        (create D width height code usage w).2⟩ := by
  rcases h : create D width height code usage w with ⟨e | b, w'⟩
  · simpa [brought] using Changes.one (Change.notCreated h)
  · exact .one (.created p h)

end BufferObject
end DisplayBuffers
