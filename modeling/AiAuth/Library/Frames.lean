import AiAuth.Library.Bytes

/-!
# Frames

A field behind its length says where it ends. A tag says where it ends if no tag is the
beginning of another.
-/
namespace AiAuth.Library

/-- A field behind its length. -/
def frame (w : ℕ) (s : Bytes) : Bytes := bigEndian w s.length ++ s

section frame
variable {w : ℕ} {s s' r r' : Bytes}

@[simp] theorem frame_length : (frame w s).length = w + s.length := by
  simp [frame]

/-- A frame alone needs no bound: what remains of the whole is the field. -/
theorem frame_inj (h : frame w s = frame w s') : s = s' := by
  have hlen := congrArg List.length h
  rw [frame_length, frame_length] at hlen
  have hs : s.length = s'.length := by omega
  unfold frame at h
  rw [hs] at h
  exact List.append_cancel_left h

/-- Whatever follows a frame, a field whose length fits its width can be read off the front. -/
theorem frame_append_inj (hs : s.length < 256 ^ w) (hs' : s'.length < 256 ^ w)
    (h : frame w s ++ r = frame w s' ++ r') : s = s' ∧ r = r' := by
  unfold frame at h
  rw [List.append_assoc, List.append_assoc] at h
  obtain ⟨hwidth, hrest⟩ := List.append_inj h (by simp)
  have hlen : s.length = s'.length := bigEndian_inj hs hs' hwidth
  exact List.append_inj hrest hlen

end frame

/-- No tag is the beginning of another. -/
def PrefixFree (tags : List Bytes) : Prop := ∀ a ∈ tags, ∀ b ∈ tags, a <+: b → a = b

instance decidablePrefixFree (tags : List Bytes) : Decidable (PrefixFree tags) :=
  inferInstanceAs (Decidable (∀ a ∈ tags, ∀ b ∈ tags, a <+: b → a = b))

/-- A tag can be read off the front. -/
theorem PrefixFree.append_inj {tags : List Bytes} {a b r s : Bytes} (h : PrefixFree tags)
    (ha : a ∈ tags) (hb : b ∈ tags) (heq : a ++ r = b ++ s) : a = b ∧ r = s := by
  have hpre : a <+: b ++ s := ⟨r, heq⟩
  have htag : a = b := by
    rcases List.prefix_or_prefix_of_prefix hpre (List.prefix_append b s) with hab | hba
    · exact h a ha b hb hab
    · exact (h b hb a ha hba).symm
  subst htag
  exact ⟨rfl, List.append_cancel_left heq⟩

end AiAuth.Library
