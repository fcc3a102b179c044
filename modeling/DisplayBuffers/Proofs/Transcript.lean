import DisplayBuffers.Proofs.CallLog
import DisplayBuffers.Proofs.DeviceLifetime
import DisplayBuffers.Proofs.MappedLength

/-! The calls to the kernel behind the events of a session with dumb buffers. Every event is served
by a few calls of its own, and while the node is open there are no others. -/
namespace DisplayBuffers.Dumb
variable {κ ι : Type} {K : Kernel κ ι}

/-- The calls that serve an event, with the answers that make the event's outcome. -/
inductive Serves : Event → List Call → Prop
  | allocated {kind width height format st x}
      (h : st.toAllocation = { handle := x.handle, stride := x.pitch, width := x.width
                               height := x.height
                               length := rowBytes x.pitch (kind.dimensions width height).2 }) :
      Serves (.allocate kind width height format (.ok st))
        [.createDumb (kind.dimensions width height).1 (kind.dimensions width height).2
          bitsPerPixel 0 (.ok x)]
  | notAllocated {kind width height format e} :
      Serves (.allocate kind width height format (.error (.os e)))
        [.createDumb (kind.dimensions width height).1 (kind.dimensions width height).2
          bitsPerPixel 0 (.error e)]
  | noOffset {st e} : Serves (.map st (.error (.os e))) [.mapDumb st.handle (.error e)]
  | offset {st offset r r'} (h : r' = placed (r.mapError .os)) :
      Serves (.map st r') [.mapDumb st.handle (.ok offset),
        .mmap st.length protection mappingFlags offset r]
  | unmapped {st a r r'} (h : r' = r.mapError .os) :
      Serves (.unmap st a r') [.munmap a st.length r]
  | released {st r r'} (h : r' = r.mapError .os) :
      Serves (.release st r') [.destroyDumb st.handle r]
  | converted {d r r'} (h : r' = r.mapError .os) :
      Serves (.importDescriptor d r') [.primeToHandle d r]
  | exported {handle flags r r'} (hn : handle.isNull = false) (h : r' = r.mapError .os) :
      Serves (.exportHandle handle flags r') [.primeFromHandle handle flags r]
  | refused {handle flags} (hn : handle.isNull = true) :
      Serves (.exportHandle handle flags (.error .invalidParameter)) []
  | duplicated {d r r'} (h : r' = r.mapError .os) : Serves (.duplicate d r') [.duplicate d r]
  | closed {d} : Serves (.close d) []
  | warned {x} : Serves (.warn x) []

/-- What serves events are calls on buffers and descriptors. -/
theorem Serves.closeNode_not_mem {e : Event} {l : List Call} (h : Serves e l) :
    Call.closeNode ∉ l := by
  cases h <;> simp

/-- Calls are made on a connection, and the node stays as it is. -/
structure Connection.Asks (c : Connection κ) (l : List Call) (c' : Connection κ) : Prop where
  calls : c'.calls = c.calls ++ l
  nodeOpen : c'.nodeOpen = c.nodeOpen

theorem Connection.Asks.nothing {c c' : Connection κ} (hc : c'.calls = c.calls)
    (hn : c'.nodeOpen = c.nodeOpen) : c.Asks [] c' :=
  ⟨hc.trans (List.append_nil _).symm, hn⟩

section Serving
variable (c : Connection κ)

theorem Connection.asks_ask {α : Type} (f : κ → Except Errno α × κ)
    (call : Except Errno α → Call) : c.Asks [call (f c.kernel).1] (c.ask f call).2 :=
  ⟨rfl, rfl⟩

theorem allocate_ok_served {kind : BufferKind} {width height : UInt32} {st : Storage}
    (h : (allocate K kind width height c).1 = .ok st.toAllocation) (format : PixelFormat) :
    ∃ l, Serves (.allocate kind width height format (.ok st)) l ∧
      c.Asks l (allocate K kind width height c).2 := by
  simp only [allocate, Connection.ask] at h ⊢
  cases hr : (K.createDumb (kind.dimensions width height).1 (kind.dimensions width height).2
    bitsPerPixel 0 c.kernel).1 with
  | error e => simp [hr, Except.mapError] at h
  | ok x =>
    simp only [hr, Except.mapError, Except.ok.injEq] at h ⊢
    exact ⟨_, .allocated h.symm, rfl, rfl⟩

theorem allocate_error_served {kind : BufferKind} {width height : UInt32} {e : IoError}
    (h : (allocate K kind width height c).1 = .error e) (format : PixelFormat) :
    ∃ l, Serves (.allocate kind width height format (.error e)) l ∧
      c.Asks l (allocate K kind width height c).2 := by
  simp only [allocate, Connection.ask] at h ⊢
  cases hr : (K.createDumb (kind.dimensions width height).1 (kind.dimensions width height).2
    bitsPerPixel 0 c.kernel).1 with
  | error e =>
    simp only [hr, Except.mapError, Except.error.injEq] at h ⊢
    rw [← h]
    exact ⟨_, .notAllocated, rfl, rfl⟩
  | ok x => simp [hr, Except.mapError] at h

/-- Storage is mapped by two calls, unless the first one fails. -/
theorem map_served (st : Storage) :
    ∃ l, Serves (.map st (map K st c).1) l ∧ c.Asks l (map K st c).2 := by
  simp only [map, Connection.ask]
  cases (K.mapDumb st.handle c.kernel).1 with
  | error e => exact ⟨_, .noOffset, rfl, rfl⟩
  | ok offset => exact ⟨_, .offset rfl, List.append_assoc _ _ _, rfl⟩

theorem exportHandle_served (handle : Handle) (flags : ExportFlags) :
    ∃ l, Serves (.exportHandle handle flags (exportHandle K handle flags c).1) l ∧
      c.Asks l (exportHandle K handle flags c).2 := by
  rw [exportHandle]
  cases hn : handle.isNull with
  | true => exact ⟨_, .refused hn, .nothing rfl rfl⟩
  | false => exact ⟨_, .exported hn rfl, c.asks_ask _ _⟩

end Serving

/-- The events of a world, each with the calls that serve it. After earlier calls these are all
that the kernel got while the node was open, and its end is the last. -/
structure Transcript (base : List Call) (w : World (Connection κ))
    (t : List (Event × List Call)) : Prop where
  events : w.events = t.map (·.1)
  calls : w.driver.calls =
    base ++ t.flatMap (·.2) ++ if w.driver.nodeOpen then [] else [.closeNode]
  serves : ∀ x ∈ t, Serves x.1 x.2

/-- A transcript of one world goes on to one of another, where the node is open for as long as
somebody holds the driver. -/
def Continues (base : List Call) (t : List (Event × List Call)) (w : World (Connection κ)) : Prop :=
  w.driver.nodeOpen = decide (0 < w.holders) ∧ ∃ t', Transcript base w (t ++ t')

namespace Continues
variable {base : List Call} {t : List (Event × List Call)} {w w' : World (Connection κ)}

theorem start (hn : w.driver.nodeOpen = decide (0 < w.holders)) (h : Transcript base w t) :
    Continues base t w :=
  ⟨hn, [], (List.append_nil t).symm ▸ h⟩

/-- More events, with the calls that serve them. A closed node gets none. -/
theorem extend (h : Continues base t w) {l : List (Event × List Call)}
    (hs : ∀ x ∈ l, Serves x.1 x.2) (hl : 0 < w.holders ∨ l.flatMap (·.2) = [])
    (he : w'.events = w.events ++ l.map (·.1))
    (hc : w.driver.Asks (l.flatMap (·.2)) w'.driver) (hh : w'.holders = w.holders) :
    Continues base t w' := by
  obtain ⟨hn, t', ht⟩ := h
  have hcalls : (t ++ (t' ++ l)).flatMap (·.2) = (t ++ t').flatMap (·.2) ++ l.flatMap (·.2) := by
    rw [← List.append_assoc, List.flatMap_append]
  refine ⟨hc.nodeOpen.trans (hh ▸ hn), t' ++ l, ?_, ?_, ?_⟩
  · rw [he, ht.events, ← List.append_assoc, ← List.map_append]
  · rw [hc.calls, ht.calls, hc.nodeOpen, hcalls]
    rcases hl with hpos | hl
    · simp only [hn, decide_eq_true hpos, if_true, List.append_nil, List.append_assoc]
    · simp only [hl, List.append_nil]
  · intro x hx
    rw [← List.append_assoc] at hx
    rcases List.mem_append.mp hx with hx | hx
    · exact ht.serves x hx
    · exact hs x hx

/-- What neither makes calls nor is an event. -/
theorem quiet (h : Continues base t w) (he : w'.events = w.events)
    (hc : w.driver.Asks [] w'.driver) (hh : w'.holders = w.holders) : Continues base t w' :=
  h.extend (l := []) (fun _ hx => (List.not_mem_nil hx).elim) (.inr rfl)
    (he.trans (List.append_nil _).symm) hc hh

/-- One more event that no call serves. -/
theorem unserved (h : Continues base t w) {e : Event} (hs : Serves e [])
    (hc : w'.driver = w.driver) (he : w'.events = w.events ++ [e])
    (hh : w'.holders = w.holders) : Continues base t w' := by
  refine h.extend (l := [(e, [])]) ?_ (.inr rfl) he (hc ▸ .nothing rfl rfl) hh
  intro x hx
  obtain rfl := List.mem_singleton.mp hx
  exact hs

section Held
variable (hpos : 0 < w.holders)
include hpos

/-- One more event, with warnings after it, while somebody holds the driver. -/
theorem event (h : Continues base t w) {e : Event} {l : List Call} (hs : Serves e l)
    (hc : w.driver.Asks l w'.driver) (warnings : List Warning)
    (he : w'.events = w.events ++ e :: warnings.map .warn) (hh : w'.holders = w.holders) :
    Continues base t w' := by
  refine h.extend (l := (e, l) :: warnings.map fun x => (.warn x, [])) ?_ (.inl hpos) ?_ ?_ hh
  · intro x hx
    rcases List.mem_cons.mp hx with rfl | hx
    · exact hs
    · obtain ⟨y, _, rfl⟩ := List.mem_map.mp hx
      exact .warned
  · rw [he, List.map_cons, List.map_map]
    rfl
  · have hw : (warnings.map fun x => (Event.warn x, ([] : List Call))).flatMap (·.2) = [] := by
      simp
    rw [List.flatMap_cons, hw, List.append_nil]
    exact hc

theorem allocate (h : Continues base t w) {kind : BufferKind} {width height : UInt32}
    {format : PixelFormat} {r : Except IoError Storage}
    (ha : w.allocate (driver K) kind width height format = (r, w')) : Continues base t w' := by
  cases r with
  | ok st =>
    obtain ⟨_, hok, rfl⟩ := World.allocate_ok ha
    obtain ⟨l, hs, hc⟩ := allocate_ok_served w.driver hok format
    exact h.event hpos hs hc [] rfl rfl
  | error e =>
    have he : (Dumb.allocate K kind width height w.driver).1 = .error e := by
      rw [World.allocate] at ha
      split at ha
      · cases ha
      · next e' c hc =>
        obtain rfl := Except.error.inj (Prod.mk.inj ha).1
        exact congrArg Prod.fst hc
    obtain rfl := World.allocate_error ha
    obtain ⟨l, hs, hc⟩ := allocate_error_served w.driver he format
    exact h.event hpos hs hc [] rfl rfl

theorem map (h : Continues base t w) {st : Storage} {r : Except IoError Address}
    (hm : w.map (driver K) st = (r, w')) : Continues base t w' := by
  obtain rfl : (Dumb.map K st w.driver).1 = r := (Prod.mk.inj hm).1
  obtain rfl := World.map_eq hm
  obtain ⟨l, hs, hc⟩ := map_served (K := K) w.driver st
  exact h.event hpos hs hc [] rfl rfl

theorem exportHandle (h : Continues base t w) {handle : Handle} {flags : ExportFlags}
    {r : Except IoError Dmabuf} (hx : w.exportHandle (driver K) handle flags = (r, w')) :
    Continues base t w' := by
  obtain ⟨l, hs, hc⟩ := exportHandle_served (K := K) w.driver handle flags
  have hr : (Dumb.exportHandle K handle flags w.driver).1 = r := by
    rw [World.exportHandle] at hx
    split at hx
    · next d c hd => exact (congrArg Prod.fst hd).trans (Prod.mk.inj hx).1
    · next e c hd => exact (congrArg Prod.fst hd).trans (Prod.mk.inj hx).1
  rw [hr] at hs
  cases r with
  | ok d =>
    obtain rfl := World.exportHandle_ok hx
    exact h.event hpos hs hc [] rfl rfl
  | error e =>
    obtain rfl := World.exportHandle_error hx
    exact h.event hpos hs hc [] rfl rfl

theorem duplicate (h : Continues base t w) {d : Dmabuf} {r : Except IoError Dmabuf}
    (hd : w.duplicate (driver K) d = (r, w')) : Continues base t w' := by
  rw [World.duplicate] at hd
  split at hd
  · next c hc =>
    obtain ⟨_, rfl⟩ := Prod.mk.inj hd
    have hc : w.driver.ask (K.duplicate d) (.duplicate d) = (.ok (), c) := hc
    obtain ⟨hr, rfl⟩ := Prod.mk.inj hc
    exact h.event hpos (.duplicated hr.symm) (w.driver.asks_ask _ _) [] rfl rfl
  · next e c hc =>
    obtain ⟨_, rfl⟩ := Prod.mk.inj hd
    have hc : w.driver.ask (K.duplicate d) (.duplicate d) = (.error e, c) := hc
    obtain ⟨hr, rfl⟩ := Prod.mk.inj hc
    exact h.event hpos (.duplicated hr.symm) (w.driver.asks_ask _ _) [] rfl rfl

/-- Who holds the driver can be joined by another. -/
theorem hold (h : Continues base t w) : Continues base t w.hold := by
  obtain ⟨hn, t', ht⟩ := h
  refine ⟨?_, t', ht.events, ht.calls, ht.serves⟩
  simp only [World.hold_driver, World.hold_holders, hn, hpos, Nat.succ_pos]

/-- The node is closed by the last who lets go of the driver, and with its end the calls end. -/
theorem letGo (h : Continues base t w) : Continues base t (w.letGo (driver K)) := by
  obtain ⟨hn, t', ht⟩ := h
  by_cases hlast : w.holders = 1
  · rw [World.letGo_of_last _ hlast]
    refine ⟨rfl, t', ht.events, ?_, ht.serves⟩
    have hcalls := ht.calls
    rw [hn, decide_eq_true hpos, if_pos rfl, List.append_nil] at hcalls
    exact congrArg (· ++ [Call.closeNode]) hcalls
  · rw [World.letGo_of_others _ hlast]
    refine ⟨?_, t', ht.events, ht.calls, ht.serves⟩
    have hleft : 0 < w.holders - 1 := by omega
    rw [hn, decide_eq_true hpos, decide_eq_true hleft]

end Held

/-- Every move goes on with the transcript. Calls are made by those who hold the driver, so that
they find the node open. -/
theorem move {x y : Multiset Holding × World (Connection κ)} (h : Move (driver K) x y)
    (hcount : Counted x) (hx : Continues base t x.2) : Continues base t y.2 := by
  have held {H : Multiset Holding} {w : World (Connection κ)} (hc : Counted (H, w))
      (hr : 0 < references H) : 0 < w.holders := hr.trans_eq hc.symm
  cases h with
  | allocated h => exact hx.allocate (held hcount (by simp)) h
  | notAllocated hr h => exact hx.allocate (held hcount (references_pos hr)) h
  | mapped h => exact hx.map (held hcount (by simp)) h
  | notMapped h => exact hx.map (held hcount (by simp)) h
  | @unmapped H w s a =>
    rw [World.unmap_logged]
    exact hx.event (held hcount (by simp)) (.unmapped rfl) (w.driver.asks_ask _ _) _ rfl rfl
  | @released H w s =>
    rw [World.release_logged]
    exact hx.event (held hcount (by simp)) (.released rfl) (w.driver.asks_ask _ _) _ rfl rfl
  | exported hr h => exact hx.exportHandle (held hcount (references_pos hr)) h
  | notExported hr h => exact hx.exportHandle (held hcount (references_pos hr)) h
  | duplicated hr hd h => exact hx.duplicate (held hcount (references_pos hr)) h
  | notDuplicated hr hd h => exact hx.duplicate (held hcount (references_pos hr)) h
  | closed => exact hx.unserved .closed rfl rfl rfl
  | @imported H w d hr hd =>
    exact hx.event (held hcount (references_pos hr)) (.converted rfl) (w.driver.asks_ask _ _) []
      rfl rfl
  | joined hr => exact hx.hold (held hcount (references_pos hr))
  | left => exact hx.letGo (held hcount (by simp))
  | named => exact hx.quiet rfl (.nothing rfl rfl) rfl
  | warned y => exact hx.unserved .warned rfl rfl rfl
  | stored m => exact hx.quiet rfl (.nothing rfl rfl) rfl
  | outside i => exact hx.quiet rfl (.nothing rfl rfl) rfl

end Continues

section Sessions
variable {base : List Call} {t : List (Event × List Call)} {s : Session (Connection κ)}

/-- Every operation goes on with the transcript. -/
theorem step_continues (hs : s.Counted) (h : Continues base t s.world) (op : Session.Op ι) :
    Continues base t (s.step (driver K) op).2.world := by
  have hsupplied : Continues base t (s.supplied (driver K) op).world := by
    cases op with
    | receive name => exact h.quiet rfl (.nothing rfl rfl) rfl
    | _ => exact h
  exact ((Session.step_changes s op).moves.keeps (I := fun x => Counted x ∧ Continues base t x.2)
    (fun _ _ m hx => ⟨m.counted hx.1, hx.2.move m hx.1⟩)
    ⟨Session.supplied_counted hs op, hsupplied⟩).2

/-- The transcript of a run: what happens is served by the kernel until the node is closed, and the
node is open for just as long as somebody holds the driver. -/
theorem run_transcript (K : Kernel κ ι) {c : Connection κ} (hc : c.nodeOpen = true)
    (ops : List (Session.Op ι)) :
    let s := ((Session.start c).run (driver K) ops).2
    s.world.driver.nodeOpen = decide (0 < s.world.holders) ∧
      ∃ t, Transcript c.calls s.world t := by
  intro s
  have h : Continues c.calls [] s.world := by
    induction ops using List.reverseRecOn with
    | nil => exact ⟨hc, [], rfl, by simp [Session.start, Session.run, World.start, s, hc], nofun⟩
    | append_singleton ops op ih =>
      simp only [s, Session.run_concat]
      exact step_continues (Session.run_counted (Session.start_counted c) ops) ih op
  exact h

end Sessions
end DisplayBuffers.Dumb
