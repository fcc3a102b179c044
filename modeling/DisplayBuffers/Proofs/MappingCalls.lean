import DisplayBuffers.Proofs.Newborn

/-! The calls that map and unmap one storage, as the log has them. Only who holds the storage makes
any: for a buffer object that is mapped for the first reference, unmapped after the last, and
unmapped when it is destroyed. -/
namespace DisplayBuffers
variable {σ ι : Type} {D : Driver σ ι}

inductive MappingCall where
  | map
  | unmap
  deriving DecidableEq, Repr

/-- The call that an event is to map or to unmap the storage with a key. -/
def Event.mappingCall? (key : Nat) : Event → Option MappingCall
  | .map s _ => if s.key = key then some .map else none
  | .unmap s _ _ => if s.key = key then some .unmap else none
  | _ => none

namespace World
variable {w w' : World σ} {key : Nat}

def mappingCalls (key : Nat) (w : World σ) : List MappingCall :=
  w.events.filterMap (·.mappingCall? key)

theorem mappingCalls_append {es : List Event} (h : w'.events = w.events ++ es) :
    w'.mappingCalls key = w.mappingCalls key ++ es.filterMap (·.mappingCall? key) := by
  rw [mappingCalls, h, List.filterMap_append]
  rfl

/-- Other events do not count. -/
theorem mappingCalls_of_none {es : List Event} (h : w'.events = w.events ++ es)
    (hes : ∀ e ∈ es, e.mappingCall? key = none) : w'.mappingCalls key = w.mappingCalls key := by
  rw [mappingCalls_append h, List.filterMap_eq_nil_iff.mpr hes, List.append_nil]

theorem mappingCalls_close (w : World σ) (d : Dmabuf) :
    (w.close d).mappingCalls key = w.mappingCalls key :=
  mappingCalls_of_none rfl (by simp [Event.mappingCall?])

theorem mappingCalls_warn (w : World σ) (x : Warning) :
    (w.warn x).mappingCalls key = w.mappingCalls key :=
  mappingCalls_of_none rfl (by simp [Event.mappingCall?])

theorem mappingCalls_map {s : Storage} {r : Except IoError Address}
    (h : w.map D s = (r, w')) : w'.mappingCalls key =
      w.mappingCalls key ++ if s.key = key then [.map] else [] := by
  rw [mappingCalls_append (by rw [map_eq h])]
  by_cases hs : s.key = key <;> simp [Event.mappingCall?, hs]

theorem mappingCalls_unmap (w : World σ) (D : Driver σ ι) (s : Storage) (a : Address) :
    (w.unmap D s a).mappingCalls key =
      w.mappingCalls key ++ if s.key = key then [.unmap] else [] := by
  obtain ⟨r, warnings, hw⟩ := w.unmap_eq D s a
  rw [mappingCalls_append (by rw [hw])]
  by_cases hs : s.key = key <;> simp [Event.mappingCall?, hs]

theorem mappingCalls_release (w : World σ) (D : Driver σ ι) (s : Storage) :
    (w.release D s).mappingCalls key = w.mappingCalls key := by
  obtain ⟨r, warnings, hw⟩ := w.release_eq D s
  rw [mappingCalls_append (by rw [hw])]
  simp [Event.mappingCall?]

@[simp] theorem mappingCalls_letGo (w : World σ) (D : Driver σ ι) :
    (w.letGo D).mappingCalls key = w.mappingCalls key := rfl

theorem mappingCalls_exportHandle {handle : Handle} {flags : ExportFlags}
    {r : Except IoError Dmabuf} (h : w.exportHandle D handle flags = (r, w')) :
    w'.mappingCalls key = w.mappingCalls key := by
  cases r with
  | error e =>
    rw [exportHandle_error h]
    exact mappingCalls_of_none rfl (by simp [Event.mappingCall?])
  | ok d =>
    rw [exportHandle_ok h]
    exact mappingCalls_of_none rfl (by simp [Event.mappingCall?])

end World

/-- Storage in hand was in hand before, or is the newest there is. -/
theorem Move.held {x y : Multiset Holding × World σ} (h : Move D x y) {s : Storage}
    {m : Option Address} (hs : .storage s m ∈ y.1) :
    (∃ m', .storage s m' ∈ x.1) ∨ x.2.allocations = s.key ∧ s.key < y.2.allocations := by
  have hcons {H : Multiset Holding} {s' : Storage} {m' m'' : Option Address}
      (hs : .storage s m ∈ .storage s' m' ::ₘ H) : ∃ m₀, .storage s m₀ ∈ .storage s' m'' ::ₘ H := by
    rcases Multiset.mem_cons.mp hs with he | hs
    · cases he
      exact ⟨m'', Multiset.mem_cons_self _ _⟩
    · exact ⟨m, Multiset.mem_cons_of_mem hs⟩
  cases h with
  | allocated h =>
    obtain ⟨hk, _, rfl⟩ := World.allocate_ok h
    rcases Multiset.mem_cons.mp hs with he | hs
    · cases he
      exact .inr ⟨hk.symm, hk ▸ Nat.lt_succ_self _⟩
    · exact .inl ⟨m, Multiset.mem_cons_of_mem hs⟩
  | mapped h => exact .inl (hcons hs)
  | notMapped h => exact .inl ⟨m, hs⟩
  | unmapped => exact .inl (hcons hs)
  | released =>
    rcases Multiset.mem_cons.mp hs with he | hs
    · cases he
    · exact .inl ⟨m, Multiset.mem_cons_of_mem hs⟩
  | closed | left => exact .inl ⟨m, Multiset.mem_cons_of_mem hs⟩
  | _ => exact .inl ⟨m, by simpa using hs⟩

/-- Who does not hold a storage makes no calls about it. -/
theorem Move.quiet {key : Nat} {x y : Multiset Holding × World σ} (h : Move D x y)
    (hx : ∀ s m, .storage s m ∈ x.1 → s.key ≠ key) :
    y.2.mappingCalls key = x.2.mappingCalls key := by
  have hnone (es : List Event) (he : y.2.events = x.2.events ++ es)
      (hes : ∀ e ∈ es, e.mappingCall? key = none) :
      y.2.mappingCalls key = x.2.mappingCalls key := World.mappingCalls_of_none he hes
  cases h with
  | allocated h =>
    rw [(World.allocate_ok h).2.2] at *
    exact hnone [_] rfl (by simp [Event.mappingCall?])
  | notAllocated hr h =>
    rw [World.allocate_error h] at *
    exact hnone [_] rfl (by simp [Event.mappingCall?])
  | @mapped H _ _ s a h =>
    have hs : s.key ≠ key := hx s none (Multiset.mem_cons_self _ _)
    exact (World.mappingCalls_map h).trans (by rw [if_neg hs, List.append_nil])
  | @notMapped H _ _ s e h =>
    have hs : s.key ≠ key := hx s none (Multiset.mem_cons_self _ _)
    exact (World.mappingCalls_map h).trans (by rw [if_neg hs, List.append_nil])
  | @unmapped H w s a =>
    have hs : s.key ≠ key := hx s _ (Multiset.mem_cons_self _ _)
    exact (w.mappingCalls_unmap D s a).trans (by rw [if_neg hs, List.append_nil])
  | @released H w s => exact w.mappingCalls_release D s
  | exported hr h => exact World.mappingCalls_exportHandle h
  | notExported hr h => exact World.mappingCalls_exportHandle h
  | duplicated hr hd h =>
    rw [(World.duplicate_ok h).2] at *
    exact hnone [_] rfl (by simp [Event.mappingCall?])
  | notDuplicated hr hd h =>
    rw [World.duplicate_error h] at *
    exact hnone [_] rfl (by simp [Event.mappingCall?])
  | @closed H w d => exact w.mappingCalls_close d
  | imported hr hd => exact hnone [_] rfl (by simp [Event.mappingCall?])
  | @warned H w z => exact w.mappingCalls_warn z
  | _ => rfl

/-- No call was made to map or to unmap a storage, and none of the things in hand is that
storage. -/
structure Quiet (key : Nat) (w : World σ) (x : Multiset Holding × World σ) : Prop where
  later : key < x.2.allocations
  other : ∀ s m, .storage s m ∈ x.1 → s.key ≠ key
  same : x.2.mappingCalls key = w.mappingCalls key

theorem Quiet.move {key : Nat} {w : World σ} {x y : Multiset Holding × World σ}
    (hx : Quiet key w x) (h : Move D x y) : Quiet key w y where
  later := hx.later.trans_le h.advances.allocations
  other s m hs := by
    rcases h.held hs with ⟨m', hs'⟩ | ⟨hk, _⟩
    · exact hx.other s m' hs'
    · exact hk ▸ Nat.ne_of_gt hx.later
  same := (h.quiet hx.other).trans hx.same

theorem Moves.quiet {key : Nat} {x y : Multiset Holding × World σ} (h : Moves D x y)
    (hk : key < x.2.allocations) (hx : ∀ s m, .storage s m ∈ x.1 → s.key ≠ key) :
    y.2.mappingCalls key = x.2.mappingCalls key :=
  (h.keeps (fun _ _ m hq => hq.move m) (⟨hk, hx, rfl⟩ : Quiet key x.2 x)).same

namespace BufferObject
variable {b b' : BufferObject} {w w' : World σ} {key : Nat}

theorem key?_of_owned {s : Storage} {d : Dmabuf} (h : b.backing = .owned s d) :
    b.key? = some s.key := by
  rw [key?, h]

theorem key?_of_borrowed {d : Option Dmabuf} {a : Option Address}
    (h : b.backing = .borrowed d a) : b.key? = none := by
  rw [key?, h]

theorem mappingCalls_acquire {r : Except Error Address} (h : b.acquire D w = (r, b', w')) :
    w'.mappingCalls key = w.mappingCalls key ++
      if b.key? = some key ∧ b.mapping = none then [.map] else [] := by
  cases acquired h with
  | again hb hm => simp [hm]
  | first hb hm hw => simp [World.mappingCalls_map hw, key?_of_owned hb, hm]
  | failed hb hm hw => simp [World.mappingCalls_map hw, key?_of_owned hb, hm]
  | lent hb => simp [key?_of_borrowed hb]
  | refused hb => simp [key?_of_borrowed hb]

theorem mappingCalls_release (b : BufferObject) (D : Driver σ ι) (w : World σ) :
    (b.release D w).2.mappingCalls key = w.mappingCalls key ++
      if b.key? = some key ∧ b.isMapped ∧ b.references ≤ 1 then [.unmap] else [] := by
  have h := released D b w
  generalize (b.release D w).1 = b', (b.release D w).2 = w' at h ⊢
  cases h with
  | idle hm => simp [isMapped, hm]
  | unmapped hb hm hr =>
    simp [World.mappingCalls_unmap, key?_of_owned hb, isMapped, hm, hr]
  | returned hb hm hr => simp [key?_of_borrowed hb]
  | kept hm hr => simp [Nat.not_le.mpr hr]

/-- The calls that the end of an object brings about. -/
def lastCalls (key : Nat) (b : BufferObject) : List MappingCall :=
  if b.key? = some key ∧ b.isMapped then [.unmap] else []

theorem lastCalls_of_ne (h : b.key? ≠ some key) : b.lastCalls key = [] :=
  if_neg fun hb => h hb.1

theorem mappingCalls_destroy (b : BufferObject) (D : Driver σ ι) (w : World σ) :
    (b.destroy D w).mappingCalls key = w.mappingCalls key ++ b.lastCalls key := by
  have hwarn : (if b.locked then w.warn (.destroyedLocked b.id) else w).mappingCalls key =
      w.mappingCalls key := by
    split
    · exact w.mappingCalls_warn _
    · rfl
  rw [destroy, ← hwarn]
  generalize (if b.locked then w.warn (.destroyedLocked b.id) else w) = w
  cases hb : b.backing with
  | owned s d =>
    have hclose (w : World σ) : ((w.close d).release D s).mappingCalls key = w.mappingCalls key :=
      (World.mappingCalls_release _ D s).trans (w.mappingCalls_close d)
    cases hm : b.mapping with
    | none => simp [hclose, lastCalls, isMapped, hm]
    | some a =>
      simp [hclose, World.mappingCalls_unmap, lastCalls, isMapped, hm, key?_of_owned hb]
  | borrowed d a =>
    rw [lastCalls_of_ne (by simp [key?_of_borrowed hb]), List.append_nil]
    cases d with
    | none => rfl
    | some d => exact (w.letGo D).mappingCalls_close d

theorem mappingCalls_accessAll (b : BufferObject) (a : Address) (accesses : List Access)
    (w : World σ) : (b.accessAll D a accesses w).2.mappingCalls key = w.mappingCalls key := by
  obtain ⟨m, hm⟩ := b.accessAll_memory D a accesses w
  rw [hm]
  rfl

theorem mappingCalls_write (b : BufferObject) (data : List UInt8) (w : World σ) :
    (b.write D data w).2.mappingCalls key = w.mappingCalls key := by
  rw [write]
  split
  · rfl
  · split <;> rfl

/-- Accesses to the bytes are not calls: the calls are those for the reference. -/
theorem mappingCalls_withMapping (b : BufferObject) (D : Driver σ ι) (accesses : List Access)
    (w : World σ) (h : b.key? ≠ some key) :
    (b.withMapping D accesses w).2.2.mappingCalls key = w.mappingCalls key := by
  rw [withMapping]
  rcases ha : b.acquire D w with ⟨e | a, b', w'⟩
  all_goals
    have hw : w'.mappingCalls key = w.mappingCalls key := by
      rw [mappingCalls_acquire ha]
      simp [h]
  · exact hw
  · have hk : b'.key? ≠ some key := by
      obtain ⟨_, _, rfl⟩ := (Use.acquire ha).same
      exact h
    dsimp only
    rw [mappingCalls_release, mappingCalls_accessAll, hw]
    simp [hk]

theorem mappingCalls_share {r : Except Error Dmabuf} (h : b.share D w = (r, w')) :
    w'.mappingCalls key = w.mappingCalls key := by
  cases shared h with
  | nothing => rfl
  | duplicated hn hd hw =>
    rw [(World.duplicate_ok hw).2]
    exact World.mappingCalls_of_none rfl (by simp [Event.mappingCall?])
  | notDuplicated hn hd hw =>
    rw [World.duplicate_error hw]
    exact World.mappingCalls_of_none rfl (by simp [Event.mappingCall?])
  | exported hn hw => exact World.mappingCalls_exportHandle hw
  | notExported hn hw => exact World.mappingCalls_exportHandle hw

/-- Whether it is created or not, an object that is new concerns no storage that was there. -/
theorem mappingCalls_create {width height : UInt32} {code : FormatCode} {usage : Usage}
    {r : Except Error BufferObject} (h : create D width height code usage w = (r, w'))
    (hk : key < w.allocations) : w'.mappingCalls key = w.mappingCalls key := by
  cases r with
  | error e => exact (create_error_moves (Multiset.mem_singleton_self _) h).quiet hk (by simp)
  | ok b => exact (create_ok_moves (Multiset.mem_singleton_self _) h).quiet hk (by simp)

/-- The first call about storage is made by the creation of the object that owns it. -/
theorem mappingCalls_created {width height : UInt32} {code : FormatCode} {usage : Usage}
    (h : create D width height code usage w = (.ok b, w')) (hk : b.key? = some key) :
    w'.mappingCalls key = w.mappingCalls key ++ List.replicate b.references .map := by
  have hexport {width height : UInt32} {kind : BufferKind} {format : PixelFormat} {w₁ w₂ : World σ}
      {s : Storage} {d : Dmabuf} (ha : w.allocate D kind width height format = (.ok s, w₁))
      (he : w₁.hold.exportHandle D s.handle .closeOnExec = (.ok d, w₂)) :
      w₂.freshId.2.hold.mappingCalls key = w.mappingCalls key := by
    have hfresh : w₂.freshId.2.hold.mappingCalls key = w₂.mappingCalls key := rfl
    rw [hfresh, World.mappingCalls_exportHandle he, (World.allocate_ok ha).2.2]
    exact World.mappingCalls_of_none rfl (by simp [Event.mappingCall?])
  cases created h with
  | unmapped hf ha he hu =>
    rw [hexport ha he]
    exact (List.append_nil _).symm
  | mapped hf ha he hu hm =>
    have hs := Option.some.inj hk
    rw [World.mappingCalls_map hm, hexport ha he, if_pos hs]
    rfl

end BufferObject

namespace Surface
variable {key : Nat}

/-- The calls that the end of what a slot holds brings about. -/
def lastCalls (key : Nat) (x : Surface) (i : Nat) : List MappingCall :=
  (x.slot? i).elim [] (·.lastCalls key)

theorem lastCalls_of_slot? {x : Surface} {i : Nat} {b : BufferObject} (h : x.slot? i = some b) :
    x.lastCalls key i = b.lastCalls key := by
  rw [lastCalls, h]
  rfl

theorem lastCalls_of_other {x : Surface} {i : Nat}
    (h : ∀ b, x.slot? i = some b → b.key? ≠ some key) : x.lastCalls key i = [] := by
  rw [lastCalls]
  cases hb : x.slot? i with
  | none => rfl
  | some b => exact BufferObject.lastCalls_of_ne (h b hb)

theorem mappingCalls_clear (x : Surface) (D : Driver σ ι) (i : Nat) (w : World σ) :
    (x.clear D i w).2.mappingCalls key = w.mappingCalls key ++ x.lastCalls key i := by
  rcases x.clear_cases D i w with ⟨h, hc⟩ | ⟨old, h, hc⟩
  · rw [hc, lastCalls, h]
    exact (List.append_nil _).symm
  · rw [hc, lastCalls_of_slot? h]
    refine (old.mappingCalls_destroy D _).trans ?_
    split
    · rw [w.mappingCalls_warn]
    · rfl

theorem mappingCalls_replace (x : Surface) (D : Driver σ ι) (i : Nat) (y : Option SlotBuffer)
    (w : World σ) : (x.replace D i y w).2.2.mappingCalls key =
      w.mappingCalls key ++ x.lastCalls key i := by
  rw [replace]
  split
  · cases y <;> exact x.mappingCalls_clear D i w
  · next hi =>
    rw [lastCalls, x.slot?_eq_none hi]
    dsimp only
    split
    · exact (w.mappingCalls_close _).trans (List.append_nil _).symm
    · exact (List.append_nil _).symm

theorem mappingCalls_allocate (x : Surface) (D : Driver σ ι) (i : Nat) {w : World σ}
    (hk : key < w.allocations) : (x.allocate D i w).2.2.mappingCalls key =
      w.mappingCalls key ++ x.lastCalls key i := by
  have hclear : (x.clear D i w).2.mappingCalls key = w.mappingCalls key ++ x.lastCalls key i :=
    x.mappingCalls_clear D i w
  have hk' := hk.trans_le (clear_advances D x i w).allocations
  rw [allocate]
  split
  · dsimp only
    split
    · next h => exact (BufferObject.mappingCalls_create h hk').trans hclear
    · next h => exact (BufferObject.mappingCalls_create h hk').trans hclear
  · next hi =>
    rw [lastCalls, x.slot?_eq_none hi]
    exact (List.append_nil _).symm

theorem mappingCalls_allocated {x x' : Surface} {i : Nat} {id : BufferId} {w w' : World σ}
    {b : BufferObject} (h : x.allocate D i w = (.ok id, x', w')) (hb : x'.slot? i = some b)
    (hk : b.key? = some key) (hold : ∀ c, x.slot? i = some c → c.key? ≠ some key) :
    w'.mappingCalls key = w.mappingCalls key ++ List.replicate b.references .map := by
  have hclear : (x.clear D i w).2.mappingCalls key = w.mappingCalls key ++ x.lastCalls key i :=
    x.mappingCalls_clear D i w
  rw [lastCalls_of_other hold, List.append_nil] at hclear
  by_cases hi : i < slotCount
  · simp only [allocate, hi, if_true] at h
    split at h
    · next b' w₁ hb' =>
      obtain ⟨_, rfl, rfl⟩ := h
      rw [slot?_withSlot, if_pos ⟨rfl, hi⟩] at hb
      obtain rfl := Option.some.inj hb
      rw [BufferObject.mappingCalls_created hb' hk, hclear]
    · cases h
  · simp only [allocate, hi, if_false] at h
    cases h

private theorem slots_toList (x : Surface) :
    x.slots.toList = (List.range slotCount).map x.slot? := by
  apply List.ext_getElem?
  intro i
  by_cases hi : i < slotCount
  · simp [slot?, hi]
  · simp [hi]

theorem mappingCalls_destroy (x : Surface) (D : Driver σ ι) (w : World σ) :
    (x.destroy D w).mappingCalls key = w.mappingCalls key ++
      (List.range slotCount).flatMap (x.lastCalls key) := by
  rw [destroy, slots_toList, ← w.mappingCalls_letGo D]
  generalize List.range slotCount = l, w.letGo D = w
  induction l generalizing w with
  | nil => simp
  | cons i l ih =>
    rw [List.map_cons, List.foldl_cons, ih, List.flatMap_cons, ← List.append_assoc]
    congr 1
    cases hb : x.slot? i with
    | none => simp [lastCalls, hb]
    | some b => rw [lastCalls_of_slot? hb, b.mappingCalls_destroy]

/-- All that a surface brings about at its end concerning a storage is what the one slot does that
holds it. -/
theorem flatMap_lastCalls {x : Surface} {i : Nat} (hi : i < slotCount)
    (h : ∀ j b, j ≠ i → x.slot? j = some b → b.key? ≠ some key) :
    (List.range slotCount).flatMap (x.lastCalls key) = x.lastCalls key i := by
  have hone (l : List Nat) (hl : l.Nodup) : l.flatMap (x.lastCalls key) =
      if i ∈ l then x.lastCalls key i else [] := by
    induction l with
    | nil => rfl
    | cons j l ih =>
      obtain ⟨hj, hl⟩ := List.nodup_cons.mp hl
      rw [List.flatMap_cons, ih hl]
      by_cases hij : i = j
      · subst hij
        simp [hj]
      · simp [hij, lastCalls_of_other fun b => h j b (Ne.symm hij)]
  rw [hone _ List.nodup_range, if_pos (List.mem_range.mpr hi)]

end Surface

/-- Storage that has not been allocated has not been mapped, and nobody has it. -/
structure Unheard (x : Multiset Holding × World σ) : Prop where
  none : ∀ key, x.2.allocations ≤ key → x.2.mappingCalls key = []
  known : ∀ s m, .storage s m ∈ x.1 → s.key < x.2.allocations

theorem Unheard.move {x y : Multiset Holding × World σ} (hx : Unheard x) (h : Move D x y) :
    Unheard y where
  none key hk := by
    have hk := h.advances.allocations.trans hk
    have hother (s : Storage) (m : Option Address) (hs : .storage s m ∈ x.1) : s.key ≠ key :=
      Nat.ne_of_lt ((hx.known s m hs).trans_le hk)
    exact (h.quiet hother).trans (hx.none key hk)
  known s m hs := by
    rcases h.held hs with ⟨m', hs'⟩ | ⟨_, hk⟩
    · exact (hx.known s m' hs').trans_le h.advances.allocations
    · exact hk

end DisplayBuffers
