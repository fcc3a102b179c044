import DisplayBuffers.Proofs.SessionEstate

/-! Where the live buffer objects come from. An object that owns storage was made by a creation
whose calls stand in the log, and what creation gave it stays with it. -/
namespace DisplayBuffers
variable {σ ι : Type} {D : Driver σ ι}

/-- How a live object came to be. One that owns storage is described by the calls of its creation:
the size is the one asked for, the plane and the number of bytes are those of the storage. One that
was imported keeps nothing of what the import was given. -/
inductive Origin (events : List Event) : Place × BufferObject → Prop
  | created {p b usage format s d} (hb : b.backing = .owned s d)
      (hp : b.planes = [⟨s.handle, s.stride⟩]) (hs : b.byteSize = rowBytes s.stride s.height)
      (he : [.allocate (.ofUsage usage) b.width b.height format (.ok s),
        .exportHandle s.handle .closeOnExec (.ok d)] <:+: events) : Origin events (p, b)
  | imported {b} (hb : b.backing = .borrowed none none) : Origin events (.own, b)
  | installed {b d a} (hb : b.backing = .borrowed d a) : Origin events (.slot, b)

namespace Origin
variable {events events' : List Event} {p : Place} {b : BufferObject}

theorem mono {x : Place × BufferObject} (h : Origin events x) (hp : events <+: events') :
    Origin events' x := by
  cases h with
  | created hb hl hs he => exact .created hb hl hs (he.trans hp.isInfix)
  | imported hb => exact .imported hb
  | installed hb => exact .installed hb

/-- Mapping and locking leave the origin as it is. -/
theorem used (h : Origin events (p, b)) (m : Option Address) (r : Nat) (v : Bool) :
    Origin events (p, { b with mapping := m, references := r, locked := v }) := by
  cases h with
  | created hb hl hs he => exact .created hb hl hs he
  | imported hb => exact .imported hb
  | installed hb => exact .installed hb

private theorem infix_of_calls {kind : BufferKind} {width height : UInt32} {format : PixelFormat}
    {s : Storage} {d : Dmabuf} {w w₁ w₂ : World σ}
    (ha : w.allocate D kind width height format = (.ok s, w₁))
    (he : w₁.hold.exportHandle D s.handle .closeOnExec = (.ok d, w₂)) :
    [.allocate kind width height format (.ok s), .exportHandle s.handle .closeOnExec (.ok d)] <:+:
      w₂.events := by
  obtain ⟨_, _, rfl⟩ := World.allocate_ok ha
  rw [World.exportHandle_ok he]
  exact ⟨w.events, [], by simp⟩

theorem of_create {width height : UInt32} {code : FormatCode} {usage : Usage} {w w' : World σ}
    (h : BufferObject.create D width height code usage w = (.ok b, w')) :
    Origin w'.events (p, b) := by
  cases BufferObject.created h with
  | unmapped hf ha he hu =>
    have hw := infix_of_calls ha he
    exact .created rfl rfl rfl hw
  | mapped hf ha he hu hm =>
    have hw := infix_of_calls ha he
    rw [World.map_eq hm]
    exact .created rfl rfl rfl (hw.trans (List.prefix_append _ _).isInfix)

end Origin

def Estate.Traced (e : Estate σ) : Prop := ∀ x ∈ e.live, Origin e.world.events x

theorem Change.traced {e f : Estate σ} (h : Change D e f) (he : e.Traced) : f.Traced := by
  have hp := h.moves.advances.events
  intro x hx
  cases h with
  | used h =>
    obtain ⟨m, r, rfl⟩ := h.same
    rcases Multiset.mem_cons.mp hx with rfl | hx
    · exact ((he _ (Multiset.mem_cons_self _ _)).used m r _).mono hp
    · exact (he x (Multiset.mem_cons_of_mem hx)).mono hp
  | locked v =>
    rcases Multiset.mem_cons.mp hx with rfl | hx
    · exact (he _ (Multiset.mem_cons_self _ _)).used _ _ v
    · exact he x (Multiset.mem_cons_of_mem hx)
  | created p h =>
    rcases Multiset.mem_cons.mp hx with rfl | hx
    · exact .of_create h
    · exact (he x hx).mono hp
  | imported h =>
    rcases Multiset.mem_cons.mp hx with rfl | hx
    · exact .imported (by rw [← (Prod.mk.inj h).1])
    · exact (he x hx).mono hp
  | installed h =>
    rcases Multiset.mem_cons.mp hx with rfl | hx
    · exact .installed (by rw [← (Prod.mk.inj h).1])
    · exact (he x hx).mono hp
  | destroyed => exact (he x (Multiset.mem_cons_of_mem hx)).mono hp
  | _ => exact (he x hx).mono hp

/-- Every object that is alive at some point of a session has its origin in what happened before. -/
theorem Session.origin_of_live (D : Driver σ ι) (d : σ) (ops : List (Op ι)) :
    ((start d).run D ops).2.estate.Traced := by
  apply run_keeps (fun _ _ => Change.traced)
  · intro L H n w h
    exact h
  · intro x hx
    cases hx

end DisplayBuffers
