import DisplayBuffers.Dumb.Driver
import DisplayBuffers.Proofs.AddressSpace

/-! A kernel that maps a buffer somewhere else each time. Dumb buffers on it are shown all the same,
for their contents do not depend on the address. -/
namespace DisplayBuffers.Dumb

/-- The buffers are numbered as they are created, and their numbers are their handles. -/
structure Roaming where
  buffers : Nat
  /-- The buffer at each address, in the order in which they were mapped. -/
  mappings : List Nat

namespace Roaming

/-- The bytes of a buffer, wherever they are mapped. -/
def home (_ : Connection Roaming) (st : Storage) (i : Nat) : Cell :=
  .storage st.handle.raw.toNat i

/-- What the log says of the buffers: they have handles of their own, and their mappings are still
known. -/
structure Keeps (k : Roaming) (l : List Event) : Prop where
  made : ∀ st : Storage, st.Allocated l → st.handle.raw.toNat ≤ k.buffers
  named : ∀ st st' : Storage, st.Allocated l → st'.Allocated l →
    st.handle.raw.toNat = st'.handle.raw.toNat → st.key = st'.key
  mapped : ∀ st a, .map st (.ok a) ∈ l →
    ∃ n, a = .mapped n ∧ k.mappings[n]? = some st.handle.raw.toNat

variable {k : Roaming} {l : List Event} {c x : Connection Roaming}

theorem allocated_append {st : Storage} {e : Event} (h : st.Allocated (l ++ [e])) :
    st.Allocated l ∨
      ∃ kind width height format, e = .allocate kind width height format (.ok st) := by
  obtain ⟨kind, width, height, format, h⟩ := h
  rcases List.mem_append.mp h with h | h
  · exact .inl ⟨_, _, _, _, h⟩
  · exact .inr ⟨_, _, _, _, (List.mem_singleton.mp h).symm⟩

/-- A call that neither makes a buffer nor maps one. -/
theorem Keeps.other (h : k.Keeps l) {e : Event}
    (ha : ∀ kind width height format st, e ≠ .allocate kind width height format (.ok st))
    (hm : ∀ st a, e ≠ .map st (.ok a)) : k.Keeps (l ++ [e]) where
  made st hs :=
    (allocated_append hs).elim (h.made st) fun ⟨_, _, _, _, he⟩ => absurd he (ha _ _ _ _ _)
  named st st' hs hs' := by
    rcases allocated_append hs with hs | ⟨_, _, _, _, he⟩
    · rcases allocated_append hs' with hs' | ⟨_, _, _, _, he⟩
      · exact h.named st st' hs hs'
      · exact absurd he (ha _ _ _ _ _)
    · exact absurd he (ha _ _ _ _ _)
  mapped st a he := by
    rcases List.mem_append.mp he with he | he
    · exact h.mapped st a he
    · exact absurd (List.mem_singleton.mp he).symm (hm st a)

end Roaming
end DisplayBuffers.Dumb
