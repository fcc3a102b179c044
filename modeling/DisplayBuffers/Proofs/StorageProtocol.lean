import DisplayBuffers.Proofs.DriverRecord

/-! The driver's protocol of storage. The calls for one storage form a word of a small automaton,
which refuses every call that is out of turn, and the state it ends in is what the one owner of the
storage, if there still is one, says of it. -/
namespace DisplayBuffers
variable {σ ι : Type} {D : Driver σ ι}

/-- The storage that a call is about, once there is one. -/
def Event.key? : Event → Option Nat
  | .allocate _ _ _ _ (.ok s) => some s.key
  | .map s _ => some s.key
  | .unmap s _ _ => some s.key
  | .release s _ => some s.key
  | _ => none

/-- What the calls for one storage have come to. -/
inductive Life where
  | absent
  | unmapped (s : Storage)
  | mapped (s : Storage) (a : Address)
  | released
  deriving DecidableEq

namespace Life

/-- One more call for the storage. Storage is mapped and unmapped by turns, at the address that
mapping answered, and is released once, unmapped, whatever the release answers. -/
def next : Life → Event → Option Life
  | .absent, .allocate _ _ _ _ (.ok s) => some (.unmapped s)
  | .unmapped s, .map t (.ok a) => if t = s then some (.mapped s a) else none
  | .unmapped s, .map t (.error _) => if t = s then some (.unmapped s) else none
  | .mapped s a, .unmap t b _ => if t = s ∧ b = a then some (.unmapped s) else none
  | .unmapped s, .release t _ => if t = s then some .released else none
  | _, _ => none

/-- The calls for the storage with a key, taken one after the other from the first event on. -/
def after (key : Nat) (events : List Event) : Option Life :=
  (events.filter fun e => e.key? = some key).foldlM next .absent

/-- What the owner of storage has in hand at a point of its life. -/
def holding : Life → Multiset Holding
  | .absent => 0
  | .unmapped s => {.storage s none}
  | .mapped s a => {.storage s (some a)}
  | .released => 0

theorem after_append_of_ne {key : Nat} {e : Event} (h : e.key? ≠ some key) (l : List Event) :
    after key (l ++ [e]) = after key l := by
  simp [after, List.filter_append, h]

theorem after_append_of_eq {key : Nat} {e : Event} (h : e.key? = some key) (l : List Event) :
    after key (l ++ [e]) = (after key l).bind (next · e) := by
  simp [after, List.filter_append, h, List.foldlM_append]

theorem after_append_warnings (key : Nat) (l : List Event) (e : Event) (warnings : List Warning) :
    after key (l ++ e :: warnings.map Event.warn) = after key (l ++ [e]) := by
  have hw : (warnings.map Event.warn).filter (fun e => e.key? = some key) = [] := by
    simp [List.filter_eq_nil_iff, Event.key?]
  simp only [after, List.filter_append, List.filter_cons, hw, List.filter_nil]

/-- The life of storage that somebody has in hand. -/
def inHand (s : Storage) : Option Address → Life
  | none => .unmapped s
  | some a => .mapped s a

theorem inHand_of_holding {l : Life} {s : Storage} {m : Option Address} {H : Multiset Holding}
    (h : l.holding = .storage s m ::ₘ H) : l = inHand s m ∧ H = 0 := by
  cases l with
  | absent => exact (Multiset.cons_ne_zero h.symm).elim
  | released => exact (Multiset.cons_ne_zero h.symm).elim
  | unmapped t =>
    obtain ⟨ht, hH⟩ := (Multiset.singleton_eq_cons_iff _).mp h
    cases ht
    exact ⟨rfl, hH⟩
  | mapped t a =>
    obtain ⟨ht, hH⟩ := (Multiset.singleton_eq_cons_iff _).mp h
    cases ht
    exact ⟨rfl, hH⟩

end Life

def Holding.key? : Holding → Option Nat
  | .storage s _ => some s.key
  | .descriptor _ | .reference => none

/-- The part of what is held that is storage with a key. -/
def keyed (key : Nat) (H : Multiset Holding) : Multiset Holding :=
  H.filter fun x => x.key? = some key

theorem keyed_cons_of_eq {key : Nat} {x : Holding} (h : x.key? = some key)
    (H : Multiset Holding) : keyed key (x ::ₘ H) = x ::ₘ keyed key H :=
  Multiset.filter_cons_of_pos _ h

theorem keyed_cons_of_ne {key : Nat} {x : Holding} (h : x.key? ≠ some key)
    (H : Multiset Holding) : keyed key (x ::ₘ H) = keyed key H :=
  Multiset.filter_cons_of_neg _ h

theorem keyed_descriptors (key : Nat) (H : Multiset Dmabuf) :
    keyed key (H.map .descriptor) = 0 := by
  apply Multiset.filter_eq_nil.mpr
  intro x hx
  obtain ⟨d, _, rfl⟩ := Multiset.mem_map.mp hx
  simp [Holding.key?]

theorem keyed_cons_descriptor (key : Nat) (d : Dmabuf) (H : Multiset Holding) :
    keyed key (.descriptor d ::ₘ H) = keyed key H :=
  keyed_cons_of_ne (by simp [Holding.key?]) H

theorem keyed_cons_reference (key : Nat) (H : Multiset Holding) :
    keyed key (.reference ::ₘ H) = keyed key H :=
  keyed_cons_of_ne (by simp [Holding.key?]) H

theorem keyed_references (key n : Nat) : keyed key (.replicate n .reference) = 0 := by
  apply Multiset.filter_eq_nil.mpr
  intro x hx
  rw [Multiset.eq_of_mem_replicate hx]
  simp [Holding.key?]

/-- No call for the storage with a key was out of turn, and its state is what its holder says. -/
def InTurn (key : Nat) (x : Multiset Holding × World σ) : Prop :=
  ∃ life, Life.after key x.2.events = some life ∧ keyed key x.1 = life.holding ∧
    (life = .absent ↔ x.2.allocations ≤ key)

namespace InTurn
variable {key : Nat} {H G : Multiset Holding} {w w' : World σ}

/-- Calls that are not about storage change nothing. -/
theorem quiet (h : InTurn key (H, w)) (es : List Event) (hes : ∀ e ∈ es, e.key? = none)
    (he : w'.events = w.events ++ es) (ha : w'.allocations = w.allocations)
    (hk : keyed key G = keyed key H) : InTurn key (G, w') := by
  obtain ⟨life, hl, hh, hn⟩ := h
  have hf : es.filter (fun e => e.key? = some key) = [] := by
    apply List.filter_eq_nil_iff.mpr
    intro e he
    simp [hes e he]
  refine ⟨life, ?_, hk.trans hh, ?_⟩
  · rw [← hl, he]
    simp only [Life.after, List.filter_append, hf, List.append_nil]
  · rw [hn]
    exact ha ▸ Iff.rfl

/-- References to the driver are of no account here. -/
theorem referring : InTurn key (.reference ::ₘ H, w) ↔ InTurn key (H, w) := by
  rw [InTurn, InTurn, keyed_cons_reference]

/-- A call about storage in hand, made when its turn has come. -/
theorem call {s : Storage} {m : Option Address} (h : InTurn key (.storage s m ::ₘ G, w))
    {e : Event} (warnings : List Warning) (next : Life) (he : e.key? = some s.key)
    (hw : w'.events = w.events ++ e :: List.map Event.warn warnings)
    (ha : w'.allocations = w.allocations) (hl : (Life.inHand s m).next e = some next)
    (hk : ∀ x ∈ next.holding, x.key? = some s.key) (hn : next ≠ .absent) :
    InTurn key (next.holding + G, w') := by
  obtain ⟨life, hlife, hh, habs⟩ := h
  by_cases hkey : s.key = key
  · have hx : (Holding.storage s m).key? = some key := congrArg some hkey
    rw [keyed_cons_of_eq hx] at hh
    obtain ⟨rfl, hG⟩ := Life.inHand_of_holding hh.symm
    refine ⟨next, ?_, ?_, ?_⟩
    · rw [hw, Life.after_append_warnings, Life.after_append_of_eq (hkey ▸ he), hlife]
      exact hl
    · have hnext : keyed key next.holding = next.holding :=
        Multiset.filter_eq_self.mpr (fun x hx => hkey ▸ hk x hx)
      rw [keyed, Multiset.filter_add, ← keyed, ← keyed, hnext, hG, add_zero]
    · rw [ha, ← habs]
      have hp : Life.inHand s m ≠ .absent := by cases m <;> simp [Life.inHand]
      exact iff_of_false hn hp
  · have hx : (Holding.storage s m).key? ≠ some key := fun hc => hkey (Option.some.inj hc)
    rw [keyed_cons_of_ne hx] at hh
    refine ⟨life, ?_, ?_, ?_⟩
    · rw [hw, Life.after_append_warnings, Life.after_append_of_ne (he ▸ hx), hlife]
    · have hnext : keyed key next.holding = 0 :=
        Multiset.filter_eq_nil.mpr (fun x hm hc => hkey (Option.some.inj ((hk x hm).symm.trans hc)))
      rw [keyed, Multiset.filter_add, ← keyed, ← keyed, hnext, zero_add, hh]
    · rw [habs]
      exact ha ▸ Iff.rfl

/-- New storage begins its life unmapped, under a key that no earlier storage had. -/
theorem allocated {kind : BufferKind} {width height : UInt32} {format : PixelFormat} {s : Storage}
    (h : InTurn key (H, w)) (ha : w.allocate D kind width height format = (.ok s, w')) :
    InTurn key (.storage s none ::ₘ H, w') := by
  obtain ⟨life, hlife, hh, habs⟩ := h
  obtain ⟨hs, _, rfl⟩ := World.allocate_ok ha
  by_cases hkey : s.key = key
  · have hx : (Holding.storage s none).key? = some key := congrArg some hkey
    obtain rfl : life = .absent := habs.mpr (by simp only; omega)
    refine ⟨.unmapped s, ?_, ?_, ?_⟩
    · rw [Life.after_append_of_eq (by exact congrArg some hkey), hlife]
      rfl
    · rw [keyed_cons_of_eq hx, hh]
      rfl
    · exact iff_of_false (by simp) (by simp only; omega)
  · have hx : (Holding.storage s none).key? ≠ some key := fun hc => hkey (Option.some.inj hc)
    refine ⟨life, ?_, ?_, ?_⟩
    · rw [Life.after_append_of_ne (by exact hx), hlife]
    · rw [keyed_cons_of_ne hx, hh]
    · rw [habs]
      simp only
      omega

end InTurn

/-- Every move keeps every storage in turn. -/
theorem Move.inTurn (key : Nat) {x y : Multiset Holding × World σ} (h : Move D x y)
    (hx : InTurn key x) : InTurn key y := by
  cases h with
  | allocated h => exact (InTurn.referring.mp hx).allocated h
  | notAllocated hr h =>
    rw [World.allocate_error h]
    exact hx.quiet [_] (by simp [Event.key?]) rfl rfl rfl
  | mapped h =>
    rw [World.map_eq h]
    exact hx.call [] (.mapped _ _) rfl rfl rfl (if_pos rfl)
      (by simp [Life.holding, Holding.key?]) (by simp)
  | notMapped h =>
    rw [World.map_eq h]
    exact hx.call [] (.unmapped _) rfl rfl rfl (if_pos rfl)
      (by simp [Life.holding, Holding.key?]) (by simp)
  | @unmapped H w s a =>
    obtain ⟨r, warnings, hw⟩ := w.unmap_eq D s a
    rw [hw]
    exact hx.call warnings (.unmapped s) rfl rfl rfl (if_pos ⟨rfl, rfl⟩)
      (by simp [Life.holding, Holding.key?]) (by simp)
  | @released H w s =>
    obtain ⟨r, warnings, hw⟩ := w.release_eq D s
    rw [hw, InTurn.referring, ← zero_add H]
    exact hx.call warnings .released rfl rfl rfl (if_pos rfl)
      (by simp [Life.holding]) (by simp)
  | exported hr h =>
    rw [World.exportHandle_ok h]
    exact hx.quiet [_] (by simp [Event.key?]) rfl rfl (keyed_cons_descriptor _ _ _)
  | notExported hr h =>
    rw [World.exportHandle_error h]
    exact hx.quiet [_] (by simp [Event.key?]) rfl rfl rfl
  | duplicated hr hd h =>
    rw [(World.duplicate_ok h).2]
    exact hx.quiet [_] (by simp [Event.key?]) rfl rfl (keyed_cons_descriptor _ _ _)
  | notDuplicated hr hd h =>
    rw [World.duplicate_error h]
    exact hx.quiet [_] (by simp [Event.key?]) rfl rfl rfl
  | closed =>
    exact hx.quiet [_] (by simp [Event.key?]) rfl rfl
      (keyed_cons_descriptor _ _ _).symm
  | imported hr hd => exact hx.quiet [_] (by simp [Event.key?]) rfl rfl rfl
  | named => exact hx.quiet [] (by simp) (List.append_nil _).symm rfl rfl
  | warned x => exact hx.quiet [_] (by simp [Event.key?]) rfl rfl rfl
  | stored m => exact hx.quiet [] (by simp) (List.append_nil _).symm rfl rfl
  | outside i => exact hx.quiet [] (by simp) (List.append_nil _).symm rfl rfl
  | joined hr =>
    exact hx.quiet [] (by simp) (List.append_nil _).symm rfl (keyed_cons_reference _ _)
  | left =>
    exact hx.quiet [] (by simp) (List.append_nil _).symm rfl (keyed_cons_reference _ _).symm

namespace BufferObject

/-- The storage with a key, if the object owns it, with the mapping that the object knows of. -/
def stored (key : Nat) (b : BufferObject) : Option Holding :=
  match b.backing with
  | .owned s _ => if s.key = key then some (.storage s b.mapping) else none
  | .borrowed _ _ => none

theorem keyed_holdings (key : Nat) (b : BufferObject) :
    keyed key b.holdings = ((b.stored key).toList : Multiset Holding) := by
  cases hb : b.backing with
  | owned s d =>
    rw [holdings_owned hb, keyed_cons_reference, stored, hb]
    have hd : keyed key {.descriptor d} = 0 := keyed_descriptors key {d}
    by_cases hk : s.key = key
    · rw [keyed_cons_of_eq (by exact congrArg some hk), hd]
      simp [hk]
    · rw [keyed_cons_of_ne (by simpa [Holding.key?] using hk), hd]
      simp [hk]
  | borrowed d a =>
    rw [holdings_borrowed hb, keyed_cons_reference, stored, hb]
    exact keyed_descriptors key d.toList

end BufferObject

theorem Estate.keyed_holdings (key : Nat) (e : Estate σ) :
    keyed key e.holdings = e.live.filterMap (·.2.stored key) := by
  rw [holdings, keyed, Multiset.filter_add, Multiset.filter_add, ← keyed, ← keyed, ← keyed,
    keyed_descriptors, keyed_references, add_zero, add_zero]
  induction e.live using Multiset.induction_on with
  | empty => rfl
  | cons b L ih =>
    rw [Multiset.cons_bind, keyed, Multiset.filter_add, ← keyed, ← keyed, ih, b.2.keyed_holdings]
    cases hs : b.2.stored key with
    | none =>
      rw [Multiset.filterMap_cons_none b L hs]
      exact zero_add _
    | some x =>
      rw [Multiset.filterMap_cons_some _ b L hs]
      rfl

theorem inTurn_start (key : Nat) (d : σ) :
    InTurn key ((Session.start d).estate.holdings, (Session.start d).world) :=
  ⟨.absent, rfl, rfl, iff_of_true rfl (Nat.zero_le key)⟩

/-- In every run the calls for each storage are in turn. -/
theorem Session.inTurn_run (key : Nat) (D : Driver σ ι) (d : σ) (ops : List (Session.Op ι)) :
    InTurn key (((start d).run D ops).2.estate.holdings, ((start d).run D ops).2.world) := by
  apply Session.run_keeps (I := fun e => InTurn key (e.holdings, e.world)) _ _ (inTurn_start key d)
  · intro e f h he
    exact h.moves.keeps (fun _ _ => Move.inTurn key) he
  · intro L H n w h
    rw [Estate.holdings_held_cons]
    exact h.quiet [] (by simp) (List.append_nil _).symm rfl (keyed_cons_descriptor _ _ _)

/-- In every session with every driver, the calls for each storage are in turn from the first to
the last, and the state they end in is that of the one live object that owns the storage: unmapped,
or mapped at the address that the object knows. Storage that was allocated and has no live owner
has been released, so the release belongs to the operation that destroys the owner or fails to
create it, and nothing follows it. The outcomes that the log tells are the driver's answers. -/
theorem storage_calls_in_turn (D : Driver σ ι) (d : σ) (ops : List (Session.Op ι)) (key : Nat) :
    let s := ((Session.start d).run D ops).2
    ∃ life, Life.after key s.world.events = some life ∧
      s.live.filterMap (·.2.stored key) = life.holding ∧
      (life = .absent ↔ s.world.allocations ≤ key) ∧
      D.Recorded d s.world.events s.world.driver := by
  intro s
  have h : InTurn key (s.estate.holdings, s.world) := Session.inTurn_run key D d ops
  rw [InTurn, Estate.keyed_holdings] at h
  obtain ⟨life, hlife, hholding, habsent⟩ := h
  exact ⟨life, hlife, hholding, habsent, (Session.run_recorded D d ops).log⟩

end DisplayBuffers
