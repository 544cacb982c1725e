import Mathlib.Data.List.Basic

/-!
# Streams that drop duplicates

A broker appends the messages it gets to a stream. It remembers the identifier of a stored message
for a window of time; a message whose identifier it remembers is acknowledged like any other and
not stored again. A sender that repeats a message until it is acknowledged therefore leaves copies
of it, but no two of them within one window.

## Main results

* `exists_id_store`: an acknowledged message is in the stream, under its identifier.
* `Spaced.store`: copies of one message stay a window apart.
-/

universe u v

namespace Streams

variable {ι : Type u} {β : Type v}

/-- A message of a stream. -/
structure Stored (ι : Type u) (β : Type v) where
  id : ι
  content : β
  storedAt : ℕ

/-- The identifier was stored within the last window. -/
def remembers [DecidableEq ι] (window now : ℕ) (id : ι) (stream : List (Stored ι β)) : Bool :=
  stream.any fun m => m.id == id && decide (now < m.storedAt + window)

/-- The stream after a message arrived. -/
def store [DecidableEq ι] (window now : ℕ) (id : ι) (content : β) (stream : List (Stored ι β)) :
    List (Stored ι β) :=
  if remembers window now id stream then stream else stream ++ [⟨id, content, now⟩]

/-- Two copies of a message are a window apart, and no message is from the future. -/
structure Spaced (window now : ℕ) (stream : List (Stored ι β)) : Prop where
  apart : stream.Pairwise fun m m' => m.id = m'.id → m.storedAt + window ≤ m'.storedAt
  past : ∀ m ∈ stream, m.storedAt ≤ now

variable {window now : ℕ} {stream : List (Stored ι β)} {m : Stored ι β}

theorem Spaced.nil : Spaced window now ([] : List (Stored ι β)) :=
  ⟨List.Pairwise.nil, fun _ h => absurd h List.not_mem_nil⟩

theorem Spaced.later (h : Spaced window now stream) (elapsed : ℕ) :
    Spaced window (now + elapsed) stream :=
  ⟨h.apart, fun m hm => Nat.le_add_right_of_le (h.past m hm)⟩

variable [DecidableEq ι] {id : ι} {content : β}

/-- What is stored stays stored. -/
theorem mem_store_of_mem (h : m ∈ stream) : m ∈ store window now id content stream := by
  unfold store
  split
  · exact h
  · exact List.mem_append_left _ h

/-- At most the arriving message is added. -/
theorem mem_store (h : m ∈ store window now id content stream) :
    m ∈ stream ∨ m = ⟨id, content, now⟩ := by
  unfold store at h
  split at h
  · exact Or.inl h
  · exact (List.mem_append.mp h).imp_right List.mem_singleton.mp

/-- **An acknowledged message is in the stream**, now or from an earlier arrival. -/
theorem exists_id_store : ∃ m ∈ store window now id content stream, m.id = id := by
  unfold store
  split
  · next h =>
      obtain ⟨m, hm, hid⟩ := List.any_eq_true.mp h
      exact ⟨m, hm, beq_iff_eq.mp (Bool.and_eq_true_iff.mp hid).1⟩
  · exact ⟨_, List.mem_append_right _ (List.mem_singleton_self _), rfl⟩

/-- **Copies of one message stay a window apart.** -/
theorem Spaced.store (h : Spaced window now stream) :
    Spaced window now (store window now id content stream) := by
  unfold Streams.store
  split
  · exact h
  · next hnew =>
      refine ⟨List.pairwise_append.mpr ⟨h.apart, List.pairwise_singleton _ _, ?_⟩, ?_⟩
      · intro m hm m' hm' hid
        obtain rfl := List.mem_singleton.mp hm'
        by_contra hlate
        refine hnew (List.any_eq_true.mpr ⟨m, hm, ?_⟩)
        rw [Bool.and_eq_true, beq_iff_eq, decide_eq_true_eq]
        exact ⟨hid, Nat.lt_of_not_le hlate⟩
      · intro m hm
        rcases List.mem_append.mp hm with hm | hm
        · exact h.past m hm
        · obtain rfl := List.mem_singleton.mp hm
          exact Nat.le_refl _

end Streams
