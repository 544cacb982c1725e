import Extractor.BlobStore
import Extractor.Lib.Paths
import Extractor.Lib.Program
import Extractor.MediaArchives

/-!
# Removing a digest

`BlobStore::remove_digest` and `path_for_digest` of `crates/blob-store/src/lib.rs` over the texts of
paths: the digest is cut after its second byte and both parts are joined to the root, whatever they
are.

## Main definitions

* `digestPath`, `removeDigest`: the code, over a file system that removes what a path names.
* `Confined`: what a call may do.

## Main results

* `remove_digest_confined_iff`: a call does no more than that exactly when the digest is well formed,
  cannot be cut, or names nothing that can be removed.
-/

namespace Extractor

open Program Paths

/-! ### The code -/

/-- `path_for_digest`, as the text of the path. -/
def digestPath (root : List Char) (digest : String) : Option (List Char) :=
  match pathForDigest digest with
  | some (.blob head rest) => some (join (join (join root "sha256".toList) head.toList) rest.toList)
  | _ => none

/-- Why `remove_file` fails. -/
inductive RemoveFailure
  | notFound
  | other
  deriving DecidableEq

/-- The one file system call of `remove_digest`. -/
inductive RemoveOp : Type → Type
  | removeFile (path : List Char) : RemoveOp (Except RemoveFailure Unit)

/-- The files of a machine, by their places. -/
abbrev PlacedFiles := List (List Char) → Option (List UInt8)

/-- What a removal changes, where relative paths begin at a working directory. -/
def removeEffect (cwd : List (List Char)) (files : PlacedFiles) :
    Exchange RemoveOp → PlacedFiles → Prop
  | ⟨.removeFile path, .ok ()⟩, files' =>
      files (resolve cwd path) ≠ none ∧ files' = Function.update files (resolve cwd path) none
  | ⟨.removeFile _, .error _⟩, files' => files' = files

/-- `remove_digest`. -/
def removeDigest (root : List Char) (digest : String) :
    ExceptT BlobStoreError (Program RemoveOp) Unit := do
  let path ← okOr (digestPath root digest) BlobStoreError.io
  let removed ← Program.call (RemoveOp.removeFile path)
  match removed with
  | .ok () => return ()
  | .error .notFound => return ()
  | .error .other => throw .io

/-! ### Well-formed digests -/

/-- A character of a digest. -/
def isDigestChar (c : Char) : Bool := c.isDigit || decide ('a' ≤ c ∧ c ≤ 'f')

/-- Where the file of a digest belongs. -/
def digestPlace (cwd : List (List Char)) (root : List Char) (digest : String) : List (List Char) :=
  resolve cwd root ++ ["sha256".toList, digest.toList.take 2, digest.toList.drop 2]

section WellFormed

variable {cwd : List (List Char)} {root : List Char} {digest : String} {c : Char}

theorem isDigestChar_utf8Size (h : isDigestChar c = true) : c.utf8Size = 1 := by
  rw [Char.utf8Size_eq_one_iff]
  rw [isDigestChar, Bool.or_eq_true, decide_eq_true_eq, Char.isDigit] at h
  rcases h with h | ⟨-, h⟩
  · rw [Bool.and_eq_true, decide_eq_true_eq, decide_eq_true_eq] at h
    exact UInt32.le_trans h.2 (by decide)
  · exact UInt32.le_trans h (by decide)

/-- Characters of a digest make a name of an entry. -/
theorem plain_of_digest {name : List Char} (hne : name ≠ [])
    (hname : ∀ c ∈ name, isDigestChar c = true) : Plain name where
  nonempty := hne
  separator h := absurd (hname _ h) (by decide)
  dot h := absurd (hname '.' (h ▸ List.mem_singleton_self _)) (by decide)
  dots h := absurd (hname '.' (h ▸ List.mem_cons_self)) (by decide)

/-- The parts of a well-formed digest. -/
theorem parts_of_isSha256Hex (h : isSha256Hex digest = true) :
    Plain (digest.toList.take 2) ∧ Plain (digest.toList.drop 2) ∧
      pathForDigest digest = some (.blob (String.ofList (digest.toList.take 2))
        (String.ofList (digest.toList.drop 2))) := by
  rw [isSha256Hex, Bool.and_eq_true, beq_iff_eq, List.all_eq_true] at h
  obtain ⟨hlength, hall⟩ := h
  rw [← String.length_toList] at hlength
  rw [pathForDigest]
  revert hlength hall
  generalize digest.toList = text
  intro hlength hall
  match text, hlength with
  | a :: b :: rest, hlength =>
      have hrest : rest ≠ [] := by
        rintro rfl
        cases hlength
      have ha := isDigestChar_utf8Size (hall a List.mem_cons_self)
      have hb := isDigestChar_utf8Size (hall b (List.mem_cons_of_mem _ List.mem_cons_self))
      refine ⟨plain_of_digest (List.cons_ne_nil _ _) fun c hc => hall c (List.mem_of_mem_take hc),
        plain_of_digest hrest fun c hc => hall c (List.mem_of_mem_drop hc), ?_⟩
      simp [ha, hb]

/-- The path of a well-formed digest names the place of its file. -/
theorem digestPath_of_isSha256Hex (h : isSha256Hex digest = true) (cwd : List (List Char))
    (root : List Char) :
    ∃ path, digestPath root digest = some path ∧
      resolve cwd path = digestPlace cwd root digest := by
  obtain ⟨htake, hdrop, hpath⟩ := parts_of_isSha256Hex h
  have hroot : Plain "sha256".toList := ⟨by decide, by decide, by decide, by decide⟩
  rw [digestPath, hpath]
  refine ⟨_, rfl, ?_⟩
  simp only [String.toList_ofList]
  rw [resolve_join hdrop, resolve_join htake, resolve_join hroot, digestPlace]
  simp

/-- Where the digest cannot be cut, there is no path. -/
theorem digestPath_eq_none_iff : digestPath root digest = none ↔ pathForDigest digest = none := by
  rw [digestPath]
  cases hpath : pathForDigest digest with
  | none => simp
  | some path =>
      obtain ⟨head, rest, rfl, -⟩ := eq_of_pathForDigest hpath
      simp

end WellFormed

/-! ### Calls -/

/-- **What a call may do**: a malformed digest is an error and removes nothing; a well-formed one
removes at most its own file. -/
structure Confined (cwd : List (List Char)) (root : List Char) (digest : String)
    (files files' : PlacedFiles) (r : Except BlobStoreError Unit) : Prop where
  malformed : isSha256Hex digest = false → (∃ error, r = .error error) ∧ files' = files
  wellFormed : isSha256Hex digest = true →
    ∀ place, files' place ≠ files place →
      place = digestPlace cwd root digest ∧ files' place = none

section Calls

variable {cwd : List (List Char)} {root : List Char} {digest : String} {files files' : PlacedFiles}
  {tr : Trace RemoveOp} {r : Except BlobStoreError Unit}

/-- The executions of a call: without a path it fails at once, with one it asks for one removal. -/
theorem removeDigest_cases
    (hexec : ExecBeside Eq (removeEffect cwd) (removeDigest root digest).run files tr files' r) :
    (pathForDigest digest = none ∧ tr = [] ∧ files' = files ∧ r = .error .io) ∨
      ∃ path answer, digestPath root digest = some path ∧ tr = [⟨.removeFile path, answer⟩] ∧
        removeEffect cwd files ⟨.removeFile path, answer⟩ files' ∧
        r = if answer = .error .other then .error .io else .ok () := by
  rw [removeDigest] at hexec
  cases hpath : digestPath root digest with
  | none =>
      rw [hpath] at hexec
      cases hexec with
      | done _ hst => exact .inl ⟨digestPath_eq_none_iff.mp hpath, rfl, hst.symm, rfl⟩
  | some path =>
      rw [hpath] at hexec
      cases hexec with
      | ask _ _ answer hst heffect hrest =>
          cases hst
          refine .inr ⟨path, answer, rfl, ?_⟩
          match answer, hrest with
          | .ok (), .done _ hst => exact ⟨rfl, hst ▸ heffect, rfl⟩
          | .error .notFound, .done _ hst => exact ⟨rfl, hst ▸ heffect, rfl⟩
          | .error .other, .done _ hst => exact ⟨rfl, hst ▸ heffect, rfl⟩

/-- **Digest paths are confined** exactly where the digest is well formed, or cannot be cut after two
bytes, or the removal is refused with an error other than that nothing is there. The path of a
well-formed digest is always the place of its file. -/
theorem remove_digest_confined_iff (cwd : List (List Char)) (root : List Char) (digest : String) :
    (∀ files tr files' r,
      ExecBeside Eq (removeEffect cwd) (removeDigest root digest).run files tr files' r →
      (Confined cwd root digest files files' r ↔
        isSha256Hex digest = true ∨ pathForDigest digest = none ∨
          ∃ path, ⟨.removeFile path, .error .other⟩ ∈ tr)) ∧
      (isSha256Hex digest = true → ∃ path, digestPath root digest = some path ∧
        resolve cwd path = digestPlace cwd root digest) := by
  refine ⟨fun files tr files' r hexec => ?_, fun h => digestPath_of_isSha256Hex h cwd root⟩
  rcases removeDigest_cases hexec with ⟨hnone, rfl, rfl, rfl⟩ | ⟨path, answer, hpath, rfl, heffect, rfl⟩
  · exact ⟨fun _ => .inr (.inl hnone),
      fun _ => ⟨fun _ => ⟨⟨_, rfl⟩, rfl⟩, fun _ place hne => absurd rfl hne⟩⟩
  · constructor
    · intro h
      by_cases hhex : isSha256Hex digest = true
      · exact .inl hhex
      · obtain ⟨⟨error, herror⟩, -⟩ := h.malformed (Bool.not_eq_true _ ▸ hhex)
        by_cases hother : answer = .error .other
        · exact .inr (.inr ⟨path, hother ▸ List.mem_singleton_self _⟩)
        · rw [if_neg hother] at herror
          cases herror
    · rintro (hhex | hnone | ⟨path', hmem⟩)
      · refine ⟨fun hno => absurd hhex (by rw [hno]; decide), fun _ place hne => ?_⟩
        obtain ⟨path', hpath', hplace⟩ := digestPath_of_isSha256Hex hhex cwd root
        obtain rfl := Option.some.inj (hpath.symm.trans hpath')
        cases answer with
        | error failure => exact absurd (congrFun heffect place) hne
        | ok u =>
            obtain ⟨-, rfl⟩ := heffect
            by_cases hsame : place = resolve cwd path
            · subst hsame
              exact ⟨hplace, Function.update_self ..⟩
            · exact absurd (Function.update_of_ne hsame ..) hne
      · rw [digestPath_eq_none_iff.mpr hnone] at hpath
        cases hpath
      · cases List.mem_singleton.mp hmem
        exact ⟨fun _ => ⟨⟨_, rfl⟩, heffect⟩, fun _ place hne => absurd (congrFun heffect place) hne⟩

end Calls

/-! ### Runs on fixed inputs -/

/-- A root, from the root of the file system. -/
def servedRoot : List Char := "/srv/blobs".toList

/-- A machine with a single file outside of the root. -/
def accountFiles : PlacedFiles := fun place =>
  if place = ["etc".toList, "passwd".toList] then some [114] else none

/-- A removal that is answered at once. -/
theorem removeDigest_exec {cwd : List (List Char)} {root path : List Char} {digest : String}
    {files files' : PlacedFiles} (hpath : digestPath root digest = some path)
    (heffect : removeEffect cwd files ⟨.removeFile path, .ok ()⟩ files') :
    ExecBeside Eq (removeEffect cwd) (removeDigest root digest).run files
      [⟨.removeFile path, .ok ()⟩] files' (.ok ()) := by
  rw [removeDigest, hpath]
  exact .ask _ _ _ rfl heffect (.done _ rfl)

/-- A suffix that is an absolute path is removed, and the call succeeds. -/
theorem absolute_suffix_removed :
    ∃ tr files', ExecBeside Eq (removeEffect []) (removeDigest servedRoot "../etc/passwd").run
        accountFiles tr files' (.ok ()) ∧
      files' ["etc".toList, "passwd".toList] ≠ accountFiles ["etc".toList, "passwd".toList] ∧
      ¬ Confined [] servedRoot "../etc/passwd" accountFiles files' (.ok ()) := by
  have hpath : digestPath servedRoot "../etc/passwd" = some "/etc/passwd".toList := by
    decide +kernel
  refine ⟨_, _, removeDigest_exec hpath ⟨?_, rfl⟩, ?_, fun h => ?_⟩
  · decide +kernel
  · decide +kernel
  · obtain ⟨⟨error, herror⟩, -⟩ := h.malformed (by decide +kernel)
    cases herror

/-- A digest of zeros. -/
def zeroDigest : String := String.ofList (List.replicate 64 '0')

theorem remove_digest_confined_iff_zeros :
    ∃ path files', digestPath servedRoot zeroDigest = some path ∧
      Confined [] servedRoot zeroDigest
        (fun place => if place = digestPlace [] servedRoot zeroDigest then some [1] else none)
        files' (.ok ()) := by
  have hhex : isSha256Hex zeroDigest = true := by decide +kernel
  obtain ⟨path, hpath, hplace⟩ := (remove_digest_confined_iff [] servedRoot zeroDigest).2 hhex
  refine ⟨path, _, hpath, ((remove_digest_confined_iff [] servedRoot zeroDigest).1 _ _ _ _
    (removeDigest_exec hpath ⟨?_, rfl⟩)).mpr (.inl hhex)⟩
  rw [hplace, if_pos rfl]
  exact Option.some_ne_none _

end Extractor
