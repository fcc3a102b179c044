import DisplayBuffers.Proofs.Creation
import DisplayBuffers.Proofs.Imports

/-! What operations on buffer objects and surfaces add to the log. The calls to the driver have a
property that tells what they are for, and the calls that were refused are those that the result
tells of: at most one, which ended the operation. -/
namespace DisplayBuffers
variable {σ ι α : Type} {D : Driver σ ι} {P : Event → Prop} {w w' : World σ}

theorem Event.flatMap_reports_eq_nil {l : List Event} :
    l.flatMap reports = [] ↔ l.filter isRefused = [] := by
  simp [isRefused]

/-- Where one error is reported there was one refusal. -/
theorem Event.filter_isRefused_of_reports {l : List Event} {x : Error}
    (h : l.flatMap reports = [x]) : ∃ e, l.filter isRefused = [e] ∧ x ∈ e.reports := by
  induction l with
  | nil => cases h
  | cons e l ih =>
    rw [List.flatMap_cons] at h
    by_cases he : e.reports = []
    · rw [he, List.nil_append] at h
      rw [List.filter_cons_of_neg (by simp [isRefused, he])]
      exact ih h
    · obtain ⟨hx, hl⟩ : e.reports = [x] ∧ l.flatMap reports = [] := by
        rcases List.append_eq_singleton_iff.mp h with ⟨hn, _⟩ | hx
        · exact absurd hn he
        · exact hx
      refine ⟨e, ?_, by simp [hx]⟩
      rw [List.filter_cons_of_pos (by simp [isRefused, he]), flatMap_reports_eq_nil.mp hl]

theorem Event.allocation_of_reports {e : Event} {x : Error} (h : x ∈ e.reports) :
    ∃ step c, x = .allocation step c := by
  unfold reports at h
  split at h
  case h_3 =>
    rcases List.mem_pair.mp h with rfl | rfl <;> exact ⟨_, _, rfl⟩
  case h_6 => cases h
  all_goals
    rw [List.mem_singleton.mp h]
    exact ⟨_, _, rfl⟩

def errorsOf : Except Error α → List Error
  | .ok _ => []
  | .error x => [x]

/-- The refused calls that an error tells of. The fault of a request tells of none. -/
def Error.TellsOf (x : Error) (refused : List Event) : Prop :=
  (x.isInvalidInput = true ∧ refused = []) ∨ ∃ e, refused = [e] ∧ x ∈ e.reports

/-- The refused calls that a result tells of. -/
def Tells (r : Except Error α) (refused : List Event) : Prop :=
  match r with
  | .ok _ => refused = []
  | .error x => x.TellsOf refused

namespace World

/-- The log gains calls to the driver that have a property. Among all calls it gains, some were
refused. -/
def Logs (P : Event → Prop) (refused : List Event) (w w' : World σ) : Prop :=
  ∃ l, w'.events = w.events ++ l ∧ (∀ e ∈ l, e.isDriverCall = true → P e) ∧
    l.filter Event.isRefused = refused

namespace Logs

theorem of_same (h : w'.events = w.events) : w.Logs P [] w' :=
  ⟨[], by rw [h, List.append_nil], by simp, rfl⟩

theorem refl (w : World σ) : w.Logs P [] w := .of_same rfl

theorem hold (w : World σ) : w.Logs P [] w.hold := .of_same rfl

theorem letGo (D : Driver σ ι) (w : World σ) : w.Logs P [] (w.letGo D) := .of_same rfl

theorem trans {w'' : World σ} {r r' : List Event} (h : w.Logs P r w') (k : w'.Logs P r' w'') :
    w.Logs P (r ++ r') w'' := by
  obtain ⟨l, hl, hP, rfl⟩ := h
  obtain ⟨m, hm, hQ, rfl⟩ := k
  refine ⟨l ++ m, by rw [hm, hl, List.append_assoc], fun e he => ?_, List.filter_append _ _⟩
  rcases List.mem_append.mp he with he | he
  · exact hP e he
  · exact hQ e he

/-- What is done before or after without a refusal changes nothing about the refusals. -/
theorem after {w'' : World σ} {r : List Event} (h : w.Logs P [] w') (k : w'.Logs P r w'') :
    w.Logs P r w'' := h.trans k

theorem before {w'' : World σ} {r : List Event} (h : w.Logs P r w') (k : w'.Logs P [] w'') :
    w.Logs P r w'' := by
  have := h.trans k
  rwa [List.append_nil] at this

theorem mono {Q : Event → Prop} {r : List Event} (h : w.Logs P r w') (hPQ : ∀ e, P e → Q e) :
    w.Logs Q r w' := by
  obtain ⟨l, hl, hP, hr⟩ := h
  exact ⟨l, hl, fun e he hd => hPQ e (hP e he hd), hr⟩

/-- One call. -/
theorem one {e : Event} (h : w'.events = w.events ++ [e]) (hP : P e) :
    w.Logs P ([e].filter Event.isRefused) w' :=
  ⟨[e], h, by simpa using fun _ => hP, rfl⟩

/-- Calls whose failure is not reported. -/
theorem unreported {l : List Event} (h : w'.events = w.events ++ l)
    (hP : ∀ e ∈ l, e.isDriverCall = true → P e) (hr : ∀ e ∈ l, e.isRefused = false) :
    w.Logs P [] w' :=
  ⟨l, h, hP, by simpa [List.filter_eq_nil_iff] using hr⟩

theorem close (w : World σ) (d : Dmabuf) : w.Logs P [] (w.close d) :=
  .unreported rfl (by simp [Event.isDriverCall]) (by simp [Event.isRefused, Event.reports])

theorem warn (w : World σ) (x : Warning) : w.Logs P [] (w.warn x) :=
  .unreported rfl (by simp [Event.isDriverCall]) (by simp [Event.isRefused, Event.reports])

/-- A call that gives something back. Its failure is not reported. -/
theorem logged {e : Event} (h : w'.events = w.events ++ e.logged D) (hP : P e)
    (hr : e.isRefused = false) : w.Logs P [] w' := by
  refine .unreported h (fun x hx hd => ?_) (fun x hx => ?_)
  all_goals rcases Event.mem_logged hx with rfl | ⟨y, rfl⟩
  · exact hP
  · cases hd
  · exact hr
  · rfl

theorem unmap {s : Storage} {a : Address} (hP : ∀ r, P (.unmap s a r)) (w : World σ) :
    w.Logs P [] (w.unmap D s a) :=
  .logged (congrArg World.events (w.unmap_logged D s a)) (hP _) rfl

end Logs
end World

/-- The log gains calls that have a property, and the result tells of those that were refused. -/
def Reported (P : Event → Prop) (w : World σ) (r : Except Error α) (w' : World σ) : Prop :=
  ∃ refused, w.Logs P refused w' ∧ Tells r refused

namespace Reported

theorem faulty {x : Error} (h : x.isInvalidInput = true) (w : World σ) :
    Reported P w (.error x : Except Error α) w :=
  ⟨[], .refl w, .inl ⟨h, rfl⟩⟩

theorem ok {a : α} (h : w.Logs P [] w') : Reported P w (.ok a) w' := ⟨[], h, rfl⟩

theorem failed {e : Event} {x : Error} (h : w'.events = w.events ++ [e]) (hP : P e)
    (hx : x ∈ e.reports) : Reported P w (.error x : Except Error α) w' := by
  refine ⟨_, .one h hP, .inr ⟨e, ?_, hx⟩⟩
  exact List.filter_cons_of_pos (by simpa [Event.isRefused] using List.ne_nil_of_mem hx)

theorem before {w'' : World σ} {r : Except Error α} (h : Reported P w r w')
    (k : w'.Logs P [] w'') : Reported P w r w'' := by
  obtain ⟨refused, hl, hr⟩ := h
  exact ⟨refused, hl.before k, hr⟩

/-- A result that fails as another one does tells of the same calls. -/
theorem same {β : Type} {r : Except Error α} {r' : Except Error β} (h : Reported P w r w')
    (hr : ∀ refused, Tells r refused → Tells r' refused) : Reported P w r' w' := by
  obtain ⟨refused, hl, ht⟩ := h
  exact ⟨refused, hl, hr refused ht⟩

end Reported

namespace BufferObject
variable {b b' : BufferObject}

theorem acquire_reported {r : Except Error Address}
    (hP : ∀ s d r, b.backing = .owned s d → P (.map s r)) (h : b.acquire D w = (r, b', w')) :
    Reported P w r w' := by
  cases acquired h with
  | again hb hm => exact .ok (.refl w)
  | first hb hm hw => exact .ok (.one (congrArg World.events (World.map_eq hw)) (hP _ _ _ hb))
  | failed hb hm hw =>
    exact .failed (congrArg World.events (World.map_eq hw)) (hP _ _ _ hb) List.mem_cons_self
  | lent hb => exact .ok (.refl w)
  | refused hb => exact .faulty rfl w

theorem acquireRegion_reported {r : Except Error Address} {x y width height : UInt32}
    (hP : ∀ s d r, b.backing = .owned s d → P (.map s r))
    (h : b.acquireRegion D x y width height w = (r, b', w')) : Reported P w r w' := by
  rw [acquireRegion] at h
  split at h
  · exact acquire_reported hP h
  · obtain ⟨rfl, rfl, rfl⟩ := h
    exact .faulty rfl w

theorem release_logs (hP : ∀ s d a r, b.backing = .owned s d → P (.unmap s a r)) (w : World σ) :
    w.Logs P [] (b.release D w).2 := by
  have h := released D b w
  generalize (b.release D w).1 = b', (b.release D w).2 = w' at h ⊢
  cases h with
  | unmapped hb hm hr => exact .unmap (fun r => hP _ _ _ r hb) w
  | _ => exact .refl w

theorem withMapping_reported {r : Except Error (List Seen)} {accesses : List Access}
    (hmap : ∀ s d r, b.backing = .owned s d → P (.map s r))
    (hunmap : ∀ s d a r, b.backing = .owned s d → P (.unmap s a r))
    (h : b.withMapping D accesses w = (r, b', w')) : Reported P w r w' := by
  rw [withMapping] at h
  split at h
  · next ha =>
    obtain ⟨rfl, rfl, rfl⟩ := h
    exact (acquire_reported hmap ha).same fun _ ht => ht
  · next a b₁ w₁ ha =>
    obtain ⟨rfl, rfl, rfl⟩ := h
    obtain ⟨m, r, hsame⟩ := (Use.acquire ha).same
    have hb : b₁.backing = b.backing := by rw [hsame]
    obtain ⟨m, hm⟩ := b₁.accessAll_memory D a accesses w₁
    have hrest : w₁.Logs P [] (b₁.release D (b₁.accessAll D a accesses w₁).2).2 :=
      (World.Logs.of_same (by rw [hm])).after
        (release_logs (fun s d a r ho => hunmap s d a r (hb ▸ ho)) _)
    exact ((acquire_reported hmap ha).before hrest).same fun _ ht => ht

/-- Failures to give back what an object holds are not reported. -/
theorem destroy_logs
    (hunmap : ∀ s d a r, b.backing = .owned s d → b.mapping = some a → P (.unmap s a r))
    (hrelease : ∀ s d r, b.backing = .owned s d → P (.release s r)) (w : World σ) :
    w.Logs P [] (b.destroy D w) := by
  obtain ⟨driver, unmapped, released, hw, -⟩ := b.destroy_logged D w
  have hall : ∀ e ∈ (if b.locked then [Event.warn (.destroyedLocked b.id)] else []) ++
      (b.parting unmapped released).flatMap (Event.logged D),
      (e.isDriverCall = true → P e) ∧ e.isRefused = false := by
    intro e he
    rcases List.mem_append.mp he with he | he
    · split at he
      · rw [List.mem_singleton.mp he]
        exact ⟨nofun, rfl⟩
      · cases he
    · rcases Event.mem_flatMap_logged he with he | ⟨x, rfl⟩
      · rcases mem_parting he with ⟨s, d, a, hb, hm, rfl⟩ | ⟨d, rfl⟩ | ⟨s, d, hb, rfl⟩
        · exact ⟨fun _ => hunmap _ _ _ _ hb hm, rfl⟩
        · exact ⟨nofun, rfl⟩
        · exact ⟨fun _ => hrelease _ _ _ hb, rfl⟩
      · exact ⟨nofun, rfl⟩
  exact .unreported (congrArg World.events hw) (fun e he => (hall e he).1)
    fun e he => (hall e he).2

theorem share_reported {r : Except Error Dmabuf}
    (hP : ∀ r, b.handle.isNull = false → P (.exportHandle b.handle .closeOnExec r))
    (h : b.share D w = (r, w')) : Reported P w r w' := by
  cases shared h with
  | nothing hn hd => exact .faulty rfl w
  | duplicated hn hd hw =>
    exact .ok (.unreported (congrArg World.events (World.duplicate_ok hw).2)
      (by simp [Event.isDriverCall]) (by simp [Event.isRefused, Event.reports]))
  | @notDuplicated d e _ hn hd hw =>
    obtain rfl := World.duplicate_error hw
    exact ⟨_, ⟨_, rfl, by simp [Event.isDriverCall], rfl⟩, .inr ⟨_, rfl, List.mem_cons_self⟩⟩
  | exported hn hw => exact .ok (.one (congrArg World.events (World.exportHandle_ok hw)) (hP _ hn))
  | notExported hn hw =>
    exact .failed (congrArg World.events (World.exportHandle_error hw)) (hP _ hn)
      List.mem_cons_self

end BufferObject

/-- A call that a creation makes, for storage whose key is not below a number. -/
def Event.OfCreation (n : Nat) : Event → Prop
  | .allocate _ _ _ _ _ => True
  | .exportHandle _ flags _ => flags = .closeOnExec
  | .map s _ | .release s _ => n ≤ s.key
  | _ => False

theorem Event.OfCreation.mono {e : Event} {m n : Nat} (h : e.OfCreation n) (hmn : m ≤ n) :
    e.OfCreation m := by
  cases e <;> first | exact h | exact hmn.trans h

namespace BufferObject
variable {width height : UInt32} {code : FormatCode} {usage : Usage} {format : PixelFormat}

private theorem ofCreation_createCalls {A : Answers} {n : Nat}
    (h : ∀ s, A.allocated = .ok s → s.key = n) {e : Event}
    (he : e ∈ createCalls width height format usage A) : e.OfCreation n := by
  obtain ⟨x | s, exported, mapped, released⟩ := A
  · rw [List.mem_singleton.mp he]
    trivial
  · have hs := (h s rfl).ge
    obtain x | d := exported
    · rcases List.mem_cons.mp he with rfl | he
      · trivial
      · rw [List.mem_singleton.mp he]
        rfl
    · simp only [createCalls, Answers.attempts, List.mem_cons] at he
      rcases he with rfl | rfl | he
      · trivial
      · rfl
      · split at he
        · rw [List.mem_singleton.mp he]
          exact hs
        · cases he

private theorem ofCreation_undoing {A : Answers} {n : Nat}
    (h : ∀ s, A.allocated = .ok s → s.key = n) {e : Event} (he : e ∈ A.undoing) :
    (e.isDriverCall = true → e.OfCreation n) ∧ e.isRefused = false := by
  obtain ⟨x | s, exported, mapped, released⟩ := A
  · cases he
  · have hs := (h s rfl).ge
    obtain x | d := exported
    · rw [List.mem_singleton.mp he]
      exact ⟨fun _ => hs, rfl⟩
    · rcases List.mem_pair.mp he with rfl | rfl
      · exact ⟨nofun, rfl⟩
      · exact ⟨fun _ => hs, rfl⟩

/-- The first refusal in a creation is the error that is answered; what is undone after it is not
spoken of. -/
theorem create_reported {r : Except Error BufferObject}
    (h : create D width height code usage w = (r, w')) :
    Reported (Event.OfCreation w.allocations) w r w' := by
  cases r with
  | error x =>
    rcases create_error_logged h with ⟨_, rfl, rfl⟩ | ⟨format, A, _, hw⟩
    · exact .faulty rfl w'
    · obtain ⟨e, he, hx⟩ := Event.filter_isRefused_of_reports hw.reported
      have hcalls : w.Logs (Event.OfCreation w.allocations) [e]
          { w' with events := w.events ++ createCalls width height format usage A } :=
        ⟨_, rfl, fun e he _ => ofCreation_createCalls hw.unused he, he⟩
      have hrest : World.Logs (Event.OfCreation w.allocations) []
          { w' with events := w.events ++ createCalls width height format usage A } w' := by
        refine .unreported (l := A.undoing ++ A.complaints.map .warn) ?_ ?_ ?_
        · simp only [hw.events, List.append_assoc]
        all_goals
          intro e he
          rcases List.mem_append.mp he with he | he
        · exact (ofCreation_undoing hw.unused he).1
        · obtain ⟨y, _, rfl⟩ := List.mem_map.mp he
          exact nofun
        · exact (ofCreation_undoing hw.unused he).2
        · obtain ⟨y, _, rfl⟩ := List.mem_map.mp he
          rfl
      exact ⟨[e], hcalls.before hrest, .inr ⟨e, rfl, hx⟩⟩
  | ok b =>
    obtain ⟨format, A, s, d, m, _, hc⟩ := create_ok_logged h
    have hs : ∀ s, A.allocated = .ok s → s.key = w.allocations := by
      intro s' hs'
      obtain rfl := Except.ok.inj (hc.allocated.symm.trans hs')
      exact hc.unused
    exact .ok ⟨_, hc.events, fun e he _ => ofCreation_createCalls hs he,
      Event.flatMap_reports_eq_nil.mp hc.reported⟩

theorem createBuffer_reported {fourcc : Fourcc} {modifiers : List Modifier}
    {r : Except Error BufferObject}
    (h : Device.createBuffer D width height fourcc modifiers w = (r, w')) :
    Reported (Event.OfCreation w.allocations) w r w' := by
  unfold Device.createBuffer at h
  split at h
  · exact create_reported h
  · split at h
    · exact create_reported h
    · obtain ⟨rfl, rfl⟩ := h
      exact .faulty rfl w

/-- Planes are converted up to the first that is refused. -/
theorem convertPlanes_logs (hP : ∀ d r, P (.importDescriptor d r)) (l : List (Dmabuf × UInt32))
    (w : World σ) :
    ∃ refused, w.Logs P refused (convertPlanes D l w).2 ∧
      match (convertPlanes D l w).1 with
      | .ok _ => refused = []
      | .error (c, _) => ∃ d, refused = [.importDescriptor d (.error c)] := by
  induction l generalizing w with
  | nil => exact ⟨[], .refl w, rfl⟩
  | cons p l ih =>
    obtain ⟨d, stride⟩ := p
    rw [convertPlanes]
    rcases hq : w.importDescriptor D d with ⟨c | handle, w₁⟩
    · exact ⟨_, .one (congrArg World.events (World.importDescriptor_eq hq)) (hP _ _), d, rfl⟩
    · have hone : w.Logs P [] w₁ :=
        .one (congrArg World.events (World.importDescriptor_eq hq)) (hP _ _)
      obtain ⟨refused, hl, ht⟩ := ih w₁
      dsimp only
      generalize convertPlanes D l w₁ = rest at hl ht ⊢
      obtain ⟨⟨c, planes⟩ | planes, w₂⟩ := rest
      · exact ⟨refused, hone.after hl, ht⟩
      · exact ⟨refused, hone.after hl, ht⟩

theorem importFrom_reported (hP : ∀ d r, P (.importDescriptor d r))
    {source : ImportSource Dmabuf} {r : Except Error BufferObject}
    (h : importFrom D source w = (r, w')) : Reported P w r w' := by
  cases source with
  | external resource =>
    simp only [importFrom, importExternal] at h
    split at h
    · obtain ⟨rfl, rfl⟩ := h
      exact .faulty rfl w
    · split at h
      · obtain ⟨rfl, rfl⟩ := h
        exact .faulty rfl w
      · obtain ⟨rfl, rfl⟩ := h
        exact .ok (.of_same rfl)
  | descriptor d width height stride format =>
    simp only [importFrom] at h
    split at h
    · next c w₁ hq =>
      obtain ⟨rfl, rfl⟩ := h
      exact .failed (congrArg World.events (World.importDescriptor_eq hq)) (hP _ _)
        List.mem_cons_self
    · next handle w₁ hq =>
      obtain ⟨rfl, rfl⟩ := h
      exact .ok (.one (congrArg World.events (World.importDescriptor_eq hq)) (hP _ _))
  | planes ds strides width height format modifier =>
    obtain ⟨refused, hl, ht⟩ := convertPlanes_logs (D := D) hP (ds.zip strides) w
    simp only [importFrom, importPlanes] at h
    split at h
    · obtain ⟨rfl, rfl⟩ := h
      exact .faulty rfl w
    split at h
    · obtain ⟨rfl, rfl⟩ := h
      exact .faulty rfl w
    split at h
    · obtain ⟨rfl, rfl⟩ := h
      exact .faulty rfl w
    split at h
    · next planes w₁ hq =>
      obtain ⟨rfl, rfl⟩ := h
      rw [hq] at hl ht
      obtain rfl : refused = [] := ht
      exact .ok (hl.before (.of_same rfl))
    · next c converted w₁ hq =>
      obtain ⟨rfl, rfl⟩ := h
      rw [hq] at hl ht
      obtain ⟨d, rfl⟩ := ht
      refine ⟨_, hl.before ?_, .inr ⟨_, rfl, by simp [Event.reports]⟩⟩
      dsimp only
      split
      · exact .refl w₁
      · exact .warn w₁ _

end BufferObject

namespace Surface
variable {x : Surface} {i : Nat}

theorem create_error {width height : UInt32} {code : FormatCode} {usage : Usage} {e : Error}
    (h : create width height code usage = .error e) :
    e = .invalidArgument .unsupportedFormat := by
  rw [create] at h
  split at h
  · exact (Except.error.inj h).symm
  · cases h

theorem clear_logs
    (hunmap : ∀ b s d a r, x.slot? i = some b → b.backing = .owned s d → b.mapping = some a →
      P (.unmap s a r))
    (hrelease : ∀ b s d r, x.slot? i = some b → b.backing = .owned s d → P (.release s r))
    (w : World σ) : w.Logs P [] (x.clear D i w).2 := by
  rcases x.clear_cases D i w with ⟨_, hc⟩ | ⟨old, hold, hc⟩
  · rw [hc]
    exact .refl w
  · rw [hc]
    have hwarn : w.Logs P [] (if old.locked then w.warn (.replacedLocked i old.id) else w) := by
      split
      · exact .warn w _
      · exact .refl w
    exact hwarn.after (BufferObject.destroy_logs (fun s d a r => hunmap old s d a r hold)
      (fun s d r => hrelease old s d r hold) _)

theorem replace_reported
    (hunmap : ∀ b s d a r, x.slot? i = some b → b.backing = .owned s d → b.mapping = some a →
      P (.unmap s a r))
    (hrelease : ∀ b s d r, x.slot? i = some b → b.backing = .owned s d → P (.release s r))
    (y : Option SlotBuffer) (w : World σ) :
    Reported P w (x.replace D i y w).1 (x.replace D i y w).2.2 := by
  have hclear : w.Logs P [] (x.clear D i w).2 := clear_logs hunmap hrelease w
  by_cases hi : i < slotCount
  · simp only [replace, hi, if_true]
    cases y with
    | none => exact .ok hclear
    | some y => exact .ok (hclear.before (.of_same rfl))
  · simp only [replace, hi, if_false]
    refine ⟨[], ?_, .inl ⟨rfl, rfl⟩⟩
    split
    · exact .close w _
    · exact .refl w

theorem allocate_reported
    (hunmap : ∀ b s d a r, x.slot? i = some b → b.backing = .owned s d → b.mapping = some a →
      P (.unmap s a r))
    (hrelease : ∀ b s d r, x.slot? i = some b → b.backing = .owned s d → P (.release s r))
    (hcreate : ∀ n e, w.allocations ≤ n → Event.OfCreation n e → P e) :
    Reported P w (x.allocate D i w).1 (x.allocate D i w).2.2 := by
  have hclear : w.Logs P [] (x.clear D i w).2 := clear_logs hunmap hrelease w
  by_cases hi : i < slotCount
  · have hle := (clear_advances D x i w).allocations
    simp only [allocate, hi, if_true]
    split
    all_goals
      next hq =>
        obtain ⟨refused, hl, ht⟩ := BufferObject.create_reported hq
        exact ⟨refused, hclear.after (hl.mono fun e => hcreate _ e hle), ht⟩
  · simp only [allocate, hi, if_false]
    exact .faulty rfl w

theorem destroy_logs
    (hunmap : ∀ i b s d a r, x.slot? i = some b → b.backing = .owned s d → b.mapping = some a →
      P (.unmap s a r))
    (hrelease : ∀ i b s d r, x.slot? i = some b → b.backing = .owned s d → P (.release s r))
    (w : World σ) : w.Logs P [] (x.destroy D w) := by
  have hall : ∀ b, some b ∈ x.slots.toList → ∃ i, x.slot? i = some b := by
    intro b hb
    exact slot?_of_mem_buffers (List.reduceOption_mem_iff.mpr hb)
  refine (World.Logs.letGo D w).after ?_
  rw [destroy]
  generalize w.letGo D = w
  generalize x.slots.toList = l at hall
  induction l generalizing w with
  | nil => exact .refl w
  | cons o l ih =>
    rw [List.foldl_cons]
    refine World.Logs.after ?_ (ih _ fun b hb => hall b (List.mem_cons_of_mem _ hb))
    cases o with
    | none => exact .refl w
    | some b =>
      obtain ⟨i, hi⟩ := hall b List.mem_cons_self
      exact BufferObject.destroy_logs (fun s d a r => hunmap i b s d a r hi)
        (fun s d r => hrelease i b s d r hi) w

end Surface
end DisplayBuffers
