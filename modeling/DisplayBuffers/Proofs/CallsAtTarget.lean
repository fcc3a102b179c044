import DisplayBuffers.Proofs.Effects
import DisplayBuffers.Proofs.Lineage
import DisplayBuffers.Proofs.MappingCalls

/-! The calls that an operation brings about for the storage of one buffer object. They are those of
the object itself: where an operation works on something else, or makes or destroys something else,
there are none. -/
namespace DisplayBuffers
variable {σ ι : Type} {D : Driver σ ι}

section
variable {Used Stored : BufferObject → Prop} {w w' : World σ} {key : Nat}

/-- Calls about storage are made with the object that owns it. -/
theorem Effect.mappingCalls (h : Effect D Used Stored w w')
    (hu : ∀ b, Used b → b.key? ≠ some key) (hk : key < w.allocations) :
    w'.mappingCalls key = w.mappingCalls key := by
  cases h with
  | outside i => rfl
  | received => rfl
  | closed d => exact w.mappingCalls_close d
  | warned x => exact w.mappingCalls_warn x
  | named => rfl
  | exported handle flags => exact World.mappingCalls_exportHandle rfl
  | converted d => exact World.mappingCalls_of_none rfl (by simp [Event.mappingCall?])
  | created width height code usage => exact BufferObject.mappingCalls_create rfl hk
  | shared b => exact BufferObject.mappingCalls_share rfl
  | @acquired b hb =>
    refine (BufferObject.mappingCalls_acquire (b := b) rfl).trans ?_
    simp [hu b hb]
  | @released b hb =>
    refine (b.mappingCalls_release D w).trans ?_
    simp [hu b hb]
  | @destroyed b hb =>
    refine (b.mappingCalls_destroy D w).trans ?_
    rw [BufferObject.lastCalls_of_ne (hu b hb), List.append_nil]
  | @written b data hb => exact b.mappingCalls_write data w
  | @accessed b accesses hb hs => exact b.mappingCalls_withMapping D accesses w (hu b hb)
  | joined | left => rfl

theorem Effects.mappingCalls (h : Effects D Used Stored w w')
    (hu : ∀ b, Used b → b.key? ≠ some key) (hk : key < w.allocations) :
    w'.mappingCalls key = w.mappingCalls key :=
  (h.keeps (I := fun x => key < x.allocations ∧ x.mappingCalls key = w.mappingCalls key)
    (fun _ _ e hx => ⟨hx.1.trans_le e.advances.allocations, (e.mappingCalls hu hx.1).trans hx.2⟩)
    ⟨hk, rfl⟩).2

theorem mappingCalls_createBuffer {width height : UInt32} {fourcc : Fourcc}
    {modifiers : List Modifier} (hk : key < w.allocations) :
    (Device.createBuffer D width height fourcc modifiers w).2.mappingCalls key =
      w.mappingCalls key := by
  have h : Effects D (fun _ => False) (fun _ => False) w
      (Device.createBuffer D width height fourcc modifiers w).2 := Device.createBuffer_effects ..
  exact h.mappingCalls (fun _ => False.elim) hk

theorem mappingCalls_importFrom {source : ImportSource Dmabuf} (hk : key < w.allocations) :
    (BufferObject.importFrom D source w).2.mappingCalls key = w.mappingCalls key := by
  have h : Effects D (fun _ => False) (fun _ => False) w
      (BufferObject.importFrom D source w).2 := BufferObject.importFrom_effects ..
  exact h.mappingCalls (fun _ => False.elim) hk

end

namespace Session

section
variable {s : Session σ} {key : Nat}

/-- What had the name is destroyed. -/
theorem mappingCalls_keepObject (s : Session σ) (D : Driver σ ι) (name : String)
    (b : BufferObject) : (s.keepObject D name b).world.mappingCalls key =
      s.world.mappingCalls key ++ (s.object? (.object name)).elim [] (·.lastCalls key) := by
  rw [keepObject, object?]
  cases s.objects.find? name with
  | none => exact (List.append_nil _).symm
  | some old => exact old.mappingCalls_destroy D _

theorem mappingCalls_keepSurface (s : Session σ) (D : Driver σ ι) (surface : String)
    (x : Surface) : (s.keepSurface D surface x).world.mappingCalls key =
      s.world.mappingCalls key ++ (s.surfaces.find? surface).elim []
        fun old => (List.range slotCount).flatMap (old.lastCalls key) := by
  rw [keepSurface]
  cases s.surfaces.find? surface with
  | none => exact (List.append_nil _).symm
  | some old => exact old.mappingCalls_destroy D _

end

section
variable {s : Session σ} {t : Target} {b : BufferObject} {key : Nat}

theorem Apart.key?_ne (hs : s.Apart) (hb : s.object? t = some b) (hk : b.key? = some key)
    {u : Target} {c : BufferObject} (hc : s.object? u = some c) (hu : u ≠ t) :
    c.key? ≠ some key :=
  fun h => hu (hs.owned hc hb h hk)

/-- What is done elsewhere brings about no calls for this storage. -/
theorem mappingCalls_step_of_other (hs : s.Apart) (hb : s.object? t = some b)
    (hk : b.key? = some key) {op : Op ι} (hr : ¬ op.Renews t) (ho : ¬ op.Refers t) :
    (s.step D op).2.world.mappingCalls key = s.world.mappingCalls key := by
  refine (s.step_effects op).mappingCalls (fun c ⟨u, hc, hu⟩ => ?_) (hs.stored hb hk)
  exact hs.key?_ne hb hk hc fun h => hu.elim (h ▸ ho) (h ▸ hr)

/-- What an operation that can end the object at a target does about its storage. -/
inductive Ending (D : Driver σ ι) (s : Session σ) (op : Op ι) (t : Target) (b : BufferObject)
    (key : Nat) : Prop
  | spared (ho : (s.step D op).2.object? t = some b) (hb : (s.turn D op).begins? t = none)
      (hc : (s.step D op).2.world.mappingCalls key = s.world.mappingCalls key)
  | ended (ho : (s.step D op).2.object? t = none ∨ (s.turn D op).begins? t ≠ none)
      (hc : (s.step D op).2.world.mappingCalls key =
        s.world.mappingCalls key ++ b.lastCalls key)

private theorem Ending.of_refused {op : Op ι} (hb : s.object? t = some b) {a : Answer}
    (h : s.step D op = (⟨a, .nothing⟩, s)) (ha : a = .malformed ∨ ∃ x, a = .failed x) :
    Ending D s op t b key := by
  refine .spared ?_ (Turn.begins?_of_failed ?_) ?_
  · rw [h]
    exact hb
  · simpa [turn, h] using ha
  · rw [h]

private theorem Ending.of_device_gone {op : Op ι} (hb : s.object? t = some b)
    {f : Session σ → Outcome × Session σ} (h : s.step D op = s.onDevice f)
    (hd : s.device = false) : Ending D s op t b key := by
  refine .of_refused hb (a := .malformed) ?_ (.inl rfl)
  rw [h, onDevice, hd]
  rfl

private theorem addObject_ending {op : Op ι} {name : String}
    {made : Except Error BufferObject × World σ} (hb : s.object? (.object name) = some b)
    (hop : s.step D op = s.addObject D name made)
    (hm : made.2.mappingCalls key = s.world.mappingCalls key)
    (hn : (Turn.mk s op .done (s.step D op).2).begins? (.object name) ≠ none) :
    Ending D s op (.object name) b key := by
  obtain ⟨e | b', w⟩ := made
  · refine .spared ?_ (Turn.begins?_of_failed (.inr ⟨e, ?_⟩)) ?_
    · rw [hop]
      exact hb
    · simp [turn, hop, addObject, reply]
    · rw [hop]
      exact hm
  · refine .ended (.inr ?_) ?_
    · rwa [turn, hop]
    · rw [hop, addObject, mappingCalls_keepObject]
      have hb : (s.withWorld w).object? (.object name) = some b := hb
      have hw : (s.withWorld w).world.mappingCalls key = s.world.mappingCalls key := hm
      rw [hb, hw]
      rfl

theorem ending (hs : s.Apart) (hb : s.object? t = some b) (hk : b.key? = some key) {op : Op ι}
    (hr : op.Renews t) : Ending D s op t b key := by
  have hlater : key < s.world.allocations := hs.stored hb hk
  have hends {surface : String} {i : Nat} {x : Surface} (ht : t = .slot surface i)
      (hx : s.surfaces.find? surface = some x) (hi : x.slot? i = some b) :
      (List.range slotCount).flatMap (x.lastCalls key) = b.lastCalls key := by
    rw [Surface.flatMap_lastCalls (Surface.lt_of_slot? hi), Surface.lastCalls_of_slot? hi]
    intro j c hj hc
    refine hs.key?_ne hb hk (u := .slot surface j) (by simp [object?, hx, hc]) ?_
    simp [ht, hj]
  cases op with
  | create name width height format usage =>
    obtain rfl : t = .object name := hr
    cases hd : s.device with
    | false => exact .of_device_gone hb (by rw [step]) hd
    | true =>
      refine addObject_ending hb (by simp [step, onDevice, hd]; rfl)
        (BufferObject.mappingCalls_create rfl hlater) (by simp [Turn.begins?])
  | createBuffer name width height fourcc modifiers =>
    obtain rfl : t = .object name := hr
    cases hd : s.device with
    | false => exact .of_device_gone hb (by rw [step]) hd
    | true =>
      refine addObject_ending hb (by simp [step, onDevice, hd]; rfl)
        (mappingCalls_createBuffer hlater) (by simp [Turn.begins?])
  | importFrom name source =>
    obtain rfl : t = .object name := hr
    cases hd : s.device with
    | false => exact .of_device_gone hb (by rw [step]) hd
    | true =>
      cases hsource : source.resolve? s.descriptors.find? with
      | none =>
        exact .of_refused hb (a := .malformed) (by simp [step, onDevice, hd, hsource, refuse])
          (.inl rfl)
      | some source' =>
        exact addObject_ending hb (by simp [step, onDevice, hd, hsource]; rfl)
          (mappingCalls_importFrom hlater) (by simp [Turn.begins?])
  | destroy name =>
    obtain rfl : t = .object name := hr
    have hf : s.objects.find? name = some b := hb
    refine .ended (.inl ?_) ?_
    · simp only [step, hf, reply]
      rw [object?_erase_object, if_pos rfl]
    · simp only [step, hf, reply]
      exact b.mappingCalls_destroy D s.world
  | createSurface name width height format usage =>
    obtain ⟨i, rfl⟩ := Target.surface?_eq_some.mp hr
    obtain ⟨x, hx, hi⟩ := Option.bind_eq_some_iff.mp hb
    cases hd : s.device with
    | false => exact .of_device_gone hb (by rw [step]) hd
    | true =>
      cases hc : Surface.create width height format usage with
      | error e =>
        exact .of_refused hb (a := .failed e) (by simp [step, onDevice, hd, hc, reply])
          (.inr ⟨e, rfl⟩)
      | ok x' =>
        refine .ended (.inl ?_) ?_
        · simp only [step, onDevice, hd, if_true, hc]
          rw [keepSurface, object?_insert_surface, if_pos rfl, Surface.slot?_create hc]
        · simp only [step, onDevice, hd, if_true, hc]
          rw [mappingCalls_keepSurface,
            show (s.withWorld s.world.hold).surfaces.find? name = some x from hx,
            Option.elim_some, hends rfl hx hi]
          rfl
  | destroySurface name =>
    obtain ⟨i, rfl⟩ := Target.surface?_eq_some.mp hr
    obtain ⟨x, hx, hi⟩ := Option.bind_eq_some_iff.mp hb
    refine .ended (.inl ?_) ?_
    · simp only [step, hx, reply]
      rw [object?_erase_surface, if_pos rfl]
    · simp only [step, hx, reply]
      rw [x.mappingCalls_destroy, hends rfl hx hi]
  | replace surface i buffer =>
    obtain rfl : t = .slot surface i := hr
    obtain ⟨x, hx, hi⟩ := Option.bind_eq_some_iff.mp hb
    have hlast : x.lastCalls key i = b.lastCalls key := Surface.lastCalls_of_slot? hi
    cases buffer with
    | none =>
      refine .ended (.inl ?_) ?_
      · simp only [step, replace, hx]
        rw [object?_onSurface_slot, hx]
        exact x.slot?_replace_none s.world i
      · rw [← hlast]
        simp only [step, replace, hx, onSurface]
        exact x.mappingCalls_replace D i none s.world
    | some y =>
      cases hy : s.slotBuffer? y with
      | none =>
        exact .of_refused hb (a := .malformed) (by simp only [step, replace, hx, hy, refuse])
          (.inl rfl)
      | some z =>
        have hok := Surface.replace_ok D x (Surface.lt_of_slot? hi) (some z) s.world
        refine .ended (.inr ?_) ?_
        · simp [turn, step, replace, hx, hy, onSurface, Turn.begins?, hok, Answer.ofUnit]
        · rw [← hlast]
          simp only [step, replace, hx, hy, onSurface]
          exact x.mappingCalls_replace D i (some z) s.world
  | allocate surface i =>
    obtain rfl : t = .slot surface i := hr
    obtain ⟨x, hx, hi⟩ := Option.bind_eq_some_iff.mp hb
    have hcalls := x.mappingCalls_allocate D i hlater
    rw [Surface.lastCalls_of_slot? hi] at hcalls
    rcases ha : x.allocate D i s.world with ⟨e | id, x', w⟩ <;> rw [ha] at hcalls
    · refine .ended (.inl ?_) ?_
      · rw [step, object?_onSurface_slot, hx, Option.bind_some, ha]
        exact ((Surface.allocate_error ha).2.1 i).trans (if_pos rfl)
      · simpa only [step, onSurface, hx, ha] using hcalls
    · refine .ended (.inr ?_) ?_
      · simp [turn, step, onSurface, hx, ha, Turn.begins?]
      · simpa only [step, onSurface, hx, ha] using hcalls
  | _ => exact hr.elim

private theorem addObject_made (hs : s.Apart) {name : String}
    {made : Except Error BufferObject × World σ}
    (hb : (s.addObject D name made).2.object? (.object name) = some b) {op : Op ι}
    (hop : s.step D op = s.addObject D name made)
    (hbeg : (s.turn D op).begins? (.object name) ≠ none) (hk : b.key? = some key)
    (hn : ∀ b w, made = (.ok b, w) → b.key? = some key → s.world.allocations ≤ key ∧
      w.mappingCalls key = s.world.mappingCalls key ++ List.replicate b.references .map) :
    (s.step D op).2.world.mappingCalls key =
      s.world.mappingCalls key ++ List.replicate b.references .map := by
  obtain ⟨e | b', w⟩ := made
  · refine absurd (Turn.begins?_of_failed (.inr ⟨e, ?_⟩)) hbeg
    simp [turn, hop, addObject, reply]
  · rw [object?_addObject] at hb
    obtain rfl : b' = b := by simpa using hb
    obtain ⟨hnew, hcalls⟩ := hn b' w rfl hk
    rw [hop, addObject, mappingCalls_keepObject]
    refine Eq.trans ?_ hcalls
    have hold : ((s.withWorld w).object? (.object name)).elim [] (·.lastCalls key) = [] := by
      cases ho : (s.withWorld w).object? (.object name) with
      | none => rfl
      | some old =>
        refine BufferObject.lastCalls_of_ne fun hold => ?_
        exact absurd (hs.stored (t := .object name) ho hold) (Nat.not_lt.mpr hnew)
    rw [hold]
    exact List.append_nil _

private theorem device_of_begins {op : Op ι} {f : Session σ → Outcome × Session σ}
    (hop : s.step D op = s.onDevice f) (hbeg : (s.turn D op).begins? t ≠ none) :
    s.device = true := by
  by_contra hd
  refine hbeg (Turn.begins?_of_failed (.inl ?_))
  simp [turn, hop, onDevice, hd, refuse]

/-- An object that is made is mapped at once for each reference that it begins with. -/
theorem mappingCalls_made (hs : s.Apart) {op : Op ι} {r : Nat}
    (hbeg : (s.turn D op).begins? t = some r) (hb : (s.step D op).2.object? t = some b)
    (hk : b.key? = some key) : (s.step D op).2.world.mappingCalls key =
      s.world.mappingCalls key ++ List.replicate b.references .map := by
  have hne : (s.turn D op).begins? t ≠ none := by simp [hbeg]
  obtain ⟨b', hb', hm, hn, _⟩ := made_of_begins hbeg
  obtain rfl := Option.some.inj (hb.symm.trans hb')
  have hnew := (hn.stored key hk).1
  cases op with
  | create name width height format usage =>
    obtain rfl : Target.object name = t := Option.some.inj hm
    have hd := device_of_begins (by rw [step]) hne
    have hop : s.step D (.create name width height format usage) = s.addObject D name
        (BufferObject.create D width height format usage s.world) := by
      simp [step, onDevice, hd]
    refine addObject_made hs (hop ▸ hb) hop hne hk fun b w hmade hk => ?_
    exact ⟨((BufferObject.create_newborn hmade).1.stored key hk).1,
      BufferObject.mappingCalls_created hmade hk⟩
  | createBuffer name width height fourcc modifiers =>
    obtain rfl : Target.object name = t := Option.some.inj hm
    have hd := device_of_begins (by rw [step]) hne
    have hop : s.step D (.createBuffer name width height fourcc modifiers) =
        s.addObject D name (Device.createBuffer D width height fourcc modifiers s.world) := by
      simp [step, onDevice, hd]
    refine addObject_made hs (hop ▸ hb) hop hne hk fun b w hmade hk => ?_
    have hmade := Device.createBuffer_ok hmade
    exact ⟨((BufferObject.create_newborn hmade).1.stored key hk).1,
      BufferObject.mappingCalls_created hmade hk⟩
  | importFrom name source =>
    obtain rfl : Target.object name = t := Option.some.inj hm
    have hd := device_of_begins (by rw [step]) hne
    cases hsource : source.resolve? s.descriptors.find? with
    | none =>
      refine absurd (Turn.begins?_of_failed (.inl ?_)) hne
      simp [turn, step, onDevice, hd, hsource, refuse]
    | some source' =>
      have hop : s.step D (.importFrom name source) =
          s.addObject D name (BufferObject.importFrom D source' s.world) := by
        simp [step, onDevice, hd, hsource]
      refine addObject_made hs (hop ▸ hb) hop hne hk fun b w hmade hk => ?_
      cases (BufferObject.importFrom_newborn hmade).2.2.symm.trans hk
  | replace surface i buffer =>
    obtain rfl : Target.slot surface i = t := Option.some.inj hm
    cases hx : s.surfaces.find? surface with
    | none =>
      refine absurd (Turn.begins?_of_failed (.inl ?_)) hne
      simp [turn, step, replace, hx, refuse]
    | some x =>
      cases buffer with
      | none => exact absurd rfl hne
      | some y =>
        cases hy : s.slotBuffer? y with
        | none =>
          refine absurd (Turn.begins?_of_failed (.inl ?_)) hne
          simp [turn, step, replace, hx, hy, refuse]
        | some z =>
          simp only [step, replace, hx, hy] at hb
          rw [object?_onSurface_slot] at hb
          simp only [hx, Option.bind_some] at hb
          have hi := Surface.lt_of_slot? hb
          have hr : x.replace D i (some z) s.world = (.ok (), (x.replace D i (some z) s.world).2) :=
            Prod.ext (Surface.replace_ok D x hi (some z) s.world) rfl
          obtain ⟨c, hc, _, _, hnone⟩ := Surface.replace_newborn hi (slotBuffer?_address hy) hr
          obtain rfl := Option.some.inj (hc.symm.trans hb)
          cases hnone.symm.trans hk
  | allocate surface i =>
    obtain rfl : Target.slot surface i = t := Option.some.inj hm
    cases hx : s.surfaces.find? surface with
    | none =>
      refine absurd (Turn.begins?_of_failed (.inl ?_)) hne
      simp [turn, step, onSurface, hx, refuse]
    | some x =>
      rcases ha : x.allocate D i s.world with ⟨e | id, x', w⟩
      · refine absurd (Turn.begins?_of_failed (.inr ⟨e, ?_⟩)) hne
        simp [turn, step, onSurface, hx, ha]
      · rw [step, object?_onSurface_slot, hx, Option.bind_some, ha] at hb
        simp only [step, onSurface, hx, ha]
        refine Surface.mappingCalls_allocated ha hb hk fun c hc hold => ?_
        have hc : s.object? (.slot surface i) = some c := by simp [object?, hx, hc]
        exact absurd (hs.stored hc hold) (Nat.not_lt.mpr hnew)
  | _ => cases hm

end

theorem live_of_object? {s : Session σ} {t : Target} {b : BufferObject} (h : s.object? t = some b) :
    ∃ p, (p, b) ∈ s.live := by
  cases t with
  | object name =>
    refine ⟨.own, ?_⟩
    rw [live_of_object h]
    exact Multiset.mem_cons_self _ _
  | slot surface i =>
    obtain ⟨x, hx, hi⟩ := Option.bind_eq_some_iff.mp h
    refine ⟨.slot, ?_⟩
    rw [live_of_surface hx, Surface.placed_of_slot? hi, Multiset.cons_add]
    exact Multiset.mem_cons_self _ _

/-- The storage of an object is in hand, mapped where the object knows. -/
theorem storage_held {s : Session σ} {t : Target} {b : BufferObject} {x : Storage} {d : Dmabuf}
    (h : s.object? t = some b) (hb : b.backing = .owned x d) :
    .storage x b.mapping ∈ s.estate.holdings := by
  obtain ⟨p, hlive⟩ := live_of_object? h
  refine Estate.mem_holdings hlive ?_
  rw [BufferObject.holdings_owned hb]
  simp

/-- Storage in hand is that of an object at some target. -/
theorem holder_of_storage {s : Session σ} {x : Storage} {m : Option Address}
    (h : .storage x m ∈ s.estate.holdings) :
    ∃ t b, s.object? t = some b ∧ b.key? = some x.key := by
  have hkey {b : BufferObject} (hb : .storage x m ∈ b.holdings) : b.key? = some x.key := by
    cases hback : b.backing with
    | owned y d =>
      rw [BufferObject.holdings_owned hback] at hb
      obtain ⟨rfl, _⟩ : x = y ∧ m = b.mapping := by simpa using hb
      rw [BufferObject.key?_of_owned hback]
    | borrowed d a =>
      rw [BufferObject.holdings_borrowed hback] at hb
      simp at hb
  rcases Estate.mem_holdings_cases h with ⟨⟨p, b⟩, hlive, hb⟩ | ⟨d, _, h⟩ | h
  · rcases Multiset.mem_add.mp hlive with hlive | hlive
    · obtain ⟨c, hc, he⟩ := Multiset.mem_map.mp hlive
      obtain ⟨-, rfl⟩ := Prod.mk.inj he
      obtain ⟨name, hf⟩ := Table.find?_of_mem_values hc
      exact ⟨.object name, c, hf, hkey hb⟩
    · obtain ⟨y, hy, hlive⟩ := Multiset.mem_bind.mp hlive
      obtain ⟨c, hc, he⟩ := Multiset.mem_map.mp hlive
      obtain ⟨-, rfl⟩ := Prod.mk.inj he
      obtain ⟨surface, hf⟩ := Table.find?_of_mem_values hy
      obtain ⟨i, hi⟩ := Surface.slot?_of_mem_buffers hc
      exact ⟨.slot surface i, c, by simp [object?, hf, hi], hkey hb⟩
  · cases h
  · cases h

/-- Once no object has a storage there are no calls about it any more. -/
theorem silent {s : Session σ} {key : Nat} (hk : key < s.world.allocations)
    (h : ∀ t b, s.object? t = some b → b.key? ≠ some key) (ops : List (Op ι)) :
    (s.run D ops).2.world.mappingCalls key = s.world.mappingCalls key := by
  have hquiet : Quiet key s.world (s.estate.holdings, s.world) := by
    refine ⟨hk, fun x m hx hkey => ?_, rfl⟩
    obtain ⟨t, b, hb, hbk⟩ := holder_of_storage hx
    exact h t b hb (hkey ▸ hbk)
  refine (run_keeps (I := fun e => Quiet key s.world (e.holdings, e.world)) ?_ ?_ hquiet ops).same
  · intro e f he
    exact he.moves.keeps fun _ _ m hq => hq.move m
  · intro L H n w hq
    rw [Estate.holdings_held_cons]
    refine ⟨hq.later, fun x m hx => ?_, hq.same⟩
    exact hq.other x m ((Multiset.mem_cons.mp hx).resolve_left (by simp))

/-- An object that goes is unmapped if it is mapped, and that is the last call about its storage. -/
theorem Apart.ended {s : Session σ} (hs : s.Apart) {op : Op ι} {t : Target} {b : BufferObject}
    {key : Nat} (hb : s.object? t = some b) (hk : b.key? = some key)
    (hgone : ∀ c, (s.step D op).2.object? t = some c → c.id ≠ b.id) (ops : List (Op ι)) :
    ((s.step D op).2.run D ops).2.world.mappingCalls key =
      s.world.mappingCalls key ++ b.lastCalls key := by
  have hlater := hs.stored hb hk
  have hnobody (u : Target) (c : BufferObject) (hc : (s.step D op).2.object? u = some c) :
      c.key? ≠ some key := by
    intro hck
    rcases s.lineage hc with ⟨b', hb', rfl, _⟩ | ⟨_, hn, _⟩
    · obtain rfl := hs.owned hb' hb (by simpa using hck) hk
      obtain rfl := Option.some.inj (hb'.symm.trans hb)
      exact hgone _ hc (leaves_id ..)
    · exact Nat.not_lt.mpr (hn.stored key hck).1 hlater
  rw [silent (hlater.trans_le (s.step_advances op).allocations) hnobody]
  by_cases hr : op.Renews t
  · cases ending (D := D) hs hb hk hr with
    | spared ho => exact absurd rfl (hgone b ho)
    | ended _ hc => exact hc
  · refine absurd (leaves_id s op t b) (hgone (s.leaves D op t b) ?_)
    rw [object?_step_of_not_renews s hr, hb]
    rfl

end Session
end DisplayBuffers
