import Mathlib.Data.Nat.Notation
import Mathlib.Logic.Function.Basic

/-!
# Files with hard links

A small library on a file system as names and inodes: a directory entry names an inode, several
entries may name the same one, and removing an entry leaves the inode as it is. The names and the
contents are of arbitrary types.

## Main results

* `Tree.link_eq_ok_iff`: a link gives a second name to an existing file, and takes no name that is
  in use.
* `Tree.Allocated.create`, `Tree.Allocated.link`, `Tree.Allocated.unlink`: names keep naming
  allocated inodes.
-/

namespace Files

/-- In an updated table, an entry is the new one or was there. -/
theorem update_some_eq_some {κ β : Type} [DecidableEq κ] {f : κ → Option β} {k k' : κ} {a b : β}
    (h : Function.update f k' (some a) k = some b) : k = k' ∧ b = a ∨ k ≠ k' ∧ f k = some b := by
  by_cases hk : k = k'
  · subst hk
    rw [Function.update_self] at h
    exact .inl ⟨rfl, (Option.some.inj h).symm⟩
  · rw [Function.update_of_ne hk] at h
    exact .inr ⟨hk, h⟩

/-- In a table without one entry, an entry was there. -/
theorem update_none_eq_some {κ β : Type} [DecidableEq κ] {f : κ → Option β} {k k' : κ} {b : β}
    (h : Function.update f k' none k = some b) : k ≠ k' ∧ f k = some b := by
  by_cases hk : k = k'
  · subst hk
    rw [Function.update_self] at h
    cases h
  · rw [Function.update_of_ne hk] at h
    exact ⟨hk, h⟩

/-- Directory entries over inodes; `next` is the first inode that was never allocated. -/
structure Tree (π β : Type) where
  entry : π → Option ℕ
  content : ℕ → List β
  next : ℕ

/-- Why a link cannot be made. -/
inductive LinkError
  | notFound
  | alreadyExists
  deriving DecidableEq

namespace Tree

variable {π β : Type}

/-- No files. -/
def empty : Tree π β := ⟨fun _ => none, fun _ => [], 0⟩

/-- The bytes under a name. -/
def read (t : Tree π β) (p : π) : Option (List β) := (t.entry p).map t.content

/-- Appends to an open file. -/
def append (t : Tree π β) (i : ℕ) (bytes : List β) : Tree π β :=
  { t with content := Function.update t.content i (t.content i ++ bytes) }

variable [DecidableEq π]

/-- A new empty file. -/
def addFile (t : Tree π β) (p : π) : Tree π β where
  entry := Function.update t.entry p (some t.next)
  content := Function.update t.content t.next []
  next := t.next + 1

/-- Opens a file for writing, truncated when the name is in use, with its inode. -/
def create (t : Tree π β) (p : π) : Tree π β × ℕ :=
  match t.entry p with
  | some i => ({ t with content := Function.update t.content i [] }, i)
  | none => (t.addFile p, t.next)

/-- A name for an inode. -/
def setEntry (t : Tree π β) (q : π) (i : ℕ) : Tree π β :=
  { t with entry := Function.update t.entry q (some i) }

/-- Gives the file at `p` the second name `q`. -/
def link (t : Tree π β) (p q : π) : Except LinkError (Tree π β) :=
  match t.entry p with
  | none => .error .notFound
  | some i =>
      match t.entry q with
      | some _ => .error .alreadyExists
      | none => .ok (t.setEntry q i)

/-- Removes a name. -/
def unlink (t : Tree π β) (p : π) : Tree π β :=
  { t with entry := Function.update t.entry p none }

/-- Every name belongs to an allocated inode. -/
def Allocated (t : Tree π β) : Prop := ∀ p i, t.entry p = some i → i < t.next

variable {t t' : Tree π β} {p q : π} {i j : ℕ}

omit [DecidableEq π] in
@[simp] theorem content_append_self (t : Tree π β) (i : ℕ) (bytes : List β) :
    (t.append i bytes).content i = t.content i ++ bytes :=
  Function.update_self ..

omit [DecidableEq π] in
theorem content_append_of_ne (h : j ≠ i) (bytes : List β) :
    (t.append i bytes).content j = t.content j :=
  Function.update_of_ne h ..

/-- A file under a new name is a new file. -/
theorem create_of_none (h : t.entry p = none) : t.create p = (t.addFile p, t.next) := by
  rw [create, h]

/-- A name in use after a file was added is its name, or was in use. -/
theorem entry_addFile_eq_some (h : (t.addFile p).entry q = some i) :
    q = p ∧ i = t.next ∨ q ≠ p ∧ t.entry q = some i :=
  update_some_eq_some h

theorem entry_addFile_of_ne (h : q ≠ p) : (t.addFile p).entry q = t.entry q :=
  Function.update_of_ne h ..

@[simp] theorem content_addFile_self (t : Tree π β) (p : π) :
    (t.addFile p).content t.next = [] :=
  Function.update_self ..

theorem content_addFile_of_ne (h : i ≠ t.next) : (t.addFile p).content i = t.content i :=
  Function.update_of_ne h ..

/-- **A link** gives a second name to an existing file, and takes no name that is in use. -/
theorem link_eq_ok_iff :
    t.link p q = .ok t' ↔ ∃ i, t.entry p = some i ∧ t.entry q = none ∧ t' = t.setEntry q i := by
  unfold link
  cases hp : t.entry p with
  | none => simp
  | some i =>
      cases hq : t.entry q with
      | none => simp [eq_comm]
      | some j => simp

/-- A name in use after a new one was added is the new one, or was in use. -/
theorem entry_setEntry_eq_some (h : (t.setEntry p j).entry q = some i) :
    q = p ∧ i = j ∨ q ≠ p ∧ t.entry q = some i :=
  update_some_eq_some h

@[simp] theorem entry_setEntry_self (t : Tree π β) (q : π) (i : ℕ) :
    (t.setEntry q i).entry q = some i :=
  Function.update_self ..

theorem entry_setEntry_of_ne (h : q ≠ p) : (t.setEntry p j).entry q = t.entry q :=
  Function.update_of_ne h ..

/-- A name in use after one was removed is another one. -/
theorem entry_unlink_eq_some (h : (t.unlink p).entry q = some i) : q ≠ p ∧ t.entry q = some i :=
  update_none_eq_some h

/-- The other names are still there. -/
theorem entry_unlink_of_ne (h : q ≠ p) : (t.unlink p).entry q = t.entry q :=
  Function.update_of_ne h ..

theorem Allocated.create (ht : t.Allocated) (h : t.entry p = none) :
    (t.create p).1.Allocated := by
  rw [create_of_none h]
  intro q i hq
  change i < t.next + 1
  rcases entry_addFile_eq_some hq with ⟨-, rfl⟩ | ⟨-, hq⟩
  · exact Nat.lt_succ_self _
  · exact Nat.lt_succ_of_lt (ht q i hq)

theorem Allocated.link (ht : t.Allocated) (h : t.link p q = .ok t') : t'.Allocated := by
  obtain ⟨i, hp, -, rfl⟩ := link_eq_ok_iff.mp h
  intro r j hr
  rcases entry_setEntry_eq_some hr with ⟨-, rfl⟩ | ⟨-, hr⟩
  · exact ht p _ hp
  · exact ht r j hr

theorem Allocated.unlink (ht : t.Allocated) (p : π) : (t.unlink p).Allocated :=
  fun q i hq => ht q i (entry_unlink_eq_some hq).2

end Tree

end Files
