import Mathlib.Algebra.GroupWithZero.Nat
import Mathlib.Data.Nat.Notation
import Mathlib.Data.List.Basic
import Mathlib.Data.List.Perm.Subperm

/-!
# Files that several parties write

A directory leads from names to files, and an open file stays the same file when its name
is taken away or given to another. No file has two names.

* `Disk.create`: opens for writing; a file under the name is emptied, else a new one is made.
* `Disk.writeAt`: writes at an offset of an open file.
* `Disk.unlink`: takes a name away.
* `Disk.Holds`: given files are on the disk, each under a name of its own.
* `Disk.Held` and `Disk.Kept`: what is under a name is not written through a file opened under another.
* `Disk.OnlyReads`: what is read under a name, if anything is.
* `Disk.Writes`: what a file opened for writing has got so far, unless its name was taken away.
-/

structure Disk where
  names : String → Option ℕ
  contents : ℕ → List UInt8
  /-- The number of the next file. -/
  next : ℕ
  names_lt : ∀ path file, names path = some file → file < next
  names_inj : ∀ path path' file, names path = some file → names path' = some file → path = path'

namespace Disk

def empty : Disk where
  names _ := none
  contents _ := []
  next := 0
  names_lt _ _ h := by cases h
  names_inj _ _ _ h := by cases h

/-- What is read under a name. -/
def read (disk : Disk) (path : String) : Option (List UInt8) := (disk.names path).map disk.contents

def setContents (disk : Disk) (file : ℕ) (bytes : List UInt8) : Disk :=
  { disk with contents := fun file' => if file' = file then bytes else disk.contents file' }

/-- The file that `create` opens. -/
def createdFile (disk : Disk) (path : String) : ℕ := (disk.names path).getD disk.next

def create (disk : Disk) (path : String) : Disk where
  names path' := if path' = path then some (disk.createdFile path) else disk.names path'
  contents file := if file = disk.createdFile path then [] else disk.contents file
  next := if (disk.names path).isSome then disk.next else disk.next + 1
  names_lt path' file h := by
    have hcreated : disk.createdFile path <
        if (disk.names path).isSome then disk.next else disk.next + 1 := by
      unfold createdFile
      rcases hname : disk.names path with _ | file'
      · exact Nat.lt_succ_self _
      · exact disk.names_lt path file' hname
    split at h
    · rwa [← Option.some.inj h]
    · have hlt := disk.names_lt path' file h
      split <;> omega
  names_inj path₁ path₂ file h₁ h₂ := by
    -- another name leads elsewhere: the file is the one of this name, or new
    have hother : ∀ path', path' ≠ path → disk.names path' ≠ some (disk.createdFile path) := by
      intro path' hne h
      unfold createdFile at h
      rcases hname : disk.names path with _ | file'
      · rw [hname] at h
        exact Nat.lt_irrefl _ (disk.names_lt path' _ h)
      · rw [hname] at h
        exact hne (disk.names_inj path' path file' h hname)
    by_cases hp₁ : path₁ = path <;> by_cases hp₂ : path₂ = path
    · rw [hp₁, hp₂]
    · rw [if_pos hp₁] at h₁
      rw [if_neg hp₂, ← Option.some.inj h₁] at h₂
      exact absurd h₂ (hother path₂ hp₂)
    · rw [if_pos hp₂] at h₂
      rw [if_neg hp₁, ← Option.some.inj h₂] at h₁
      exact absurd h₁ (hother path₁ hp₁)
    · rw [if_neg hp₁] at h₁
      rw [if_neg hp₂] at h₂
      exact disk.names_inj path₁ path₂ file h₁ h₂

/-- The old bytes before and after what is written; a gap before it is filled with zeros. -/
def patch (old : List UInt8) (offset : ℕ) (bytes : List UInt8) : List UInt8 :=
  old.take offset ++ List.replicate (offset - old.length) 0 ++ bytes ++ old.drop (offset + bytes.length)

def writeAt (disk : Disk) (file offset : ℕ) (bytes : List UInt8) : Disk :=
  disk.setContents file (patch (disk.contents file) offset bytes)

def unlink (disk : Disk) (path : String) : Disk where
  names path' := if path' = path then none else disk.names path'
  contents := disk.contents
  next := disk.next
  names_lt path' file h := by
    split at h
    · cases h
    · exact disk.names_lt path' file h
  names_inj path₁ path₂ file h₁ h₂ := by
    split at h₁
    · cases h₁
    · split at h₂
      · cases h₂
      · exact disk.names_inj path₁ path₂ file h₁ h₂

/-! ## Laws -/

variable {disk : Disk} {path path' : String} {file : ℕ}

theorem patch_length (old bytes : List UInt8) : patch old old.length bytes = old ++ bytes := by
  unfold patch
  rw [List.take_length, Nat.sub_self, List.drop_of_length_le (by omega)]
  simp

theorem length_patch (old : List UInt8) (offset : ℕ) (bytes : List UInt8) :
    (patch old offset bytes).length = max old.length (offset + bytes.length) := by
  unfold patch
  simp only [List.length_append, List.length_take, List.length_replicate, List.length_drop]
  omega

@[simp] theorem names_writeAt (offset : ℕ) (bytes : List UInt8) :
    (disk.writeAt file offset bytes).names = disk.names := rfl

theorem contents_writeAt (file' offset : ℕ) (bytes : List UInt8) :
    (disk.writeAt file offset bytes).contents file' =
      if file' = file then patch (disk.contents file) offset bytes else disk.contents file' := rfl

@[simp] theorem contents_unlink : (disk.unlink path).contents = disk.contents := rfl

theorem names_unlink (path' : String) :
    (disk.unlink path).names path' = if path' = path then none else disk.names path' := rfl

theorem names_create (path' : String) : (disk.create path).names path' =
    if path' = path then some (disk.createdFile path) else disk.names path' := rfl

theorem contents_create (file : ℕ) : (disk.create path).contents file =
    if file = disk.createdFile path then [] else disk.contents file := rfl

/-- Creating a file does not open the file of another name. -/
theorem createdFile_ne (hne : path' ≠ path) (hname : disk.names path' = some file) :
    file ≠ disk.createdFile path := by
  intro heq
  have hcreated : (disk.create path).names path = some (disk.createdFile path) := by
    rw [names_create, if_pos rfl]
  have hkept : (disk.create path).names path' = some (disk.createdFile path) := by
    rw [names_create, if_neg hne, hname, heq]
  exact hne ((disk.create path).names_inj path' path _ hkept hcreated)

/-! ## Open files and names -/

/-- A file opened under the name: no other name leads to it, now or later. -/
structure Held (disk : Disk) (path : String) (file : ℕ) : Prop where
  lt : file < disk.next
  only : ∀ path', disk.names path' = some file → path' = path

/-- What is under the name afterwards was there before, with the same contents. -/
def Kept (disk disk' : Disk) (path : String) : Prop :=
  ∀ file, disk'.names path = some file → disk.names path = some file ∧ disk'.contents file = disk.contents file

theorem createdFile_lt : disk.createdFile path < (disk.create path).next :=
  (disk.create path).names_lt path _ (by rw [names_create, if_pos rfl])

theorem Held.created : (disk.create path).Held path (disk.createdFile path) :=
  ⟨createdFile_lt, fun path' h => (disk.create path).names_inj path' path _ h (by rw [names_create, if_pos rfl])⟩

theorem Held.unlink (h : disk.Held path file) (path' : String) : (disk.unlink path').Held path file := by
  refine ⟨h.lt, fun other hother => h.only other ?_⟩
  rw [names_unlink] at hother
  split at hother
  · cases hother
  · exact hother

theorem Held.writeAt {file' : ℕ} (h : disk.Held path file) (offset : ℕ) (bytes : List UInt8) :
    (disk.writeAt file' offset bytes).Held path file := ⟨h.lt, h.only⟩

theorem Held.create (h : disk.Held path file) (path' : String) : (disk.create path').Held path file := by
  have hlt := h.lt
  refine ⟨?_, fun other hother => ?_⟩
  · change file < if (disk.names path').isSome then disk.next else disk.next + 1
    split <;> omega
  · rw [names_create] at hother
    split at hother
    · rename_i heq
      -- the file under a name that is emptied, or a new one
      have hcreated := Option.some.inj hother
      unfold createdFile at hcreated
      rcases hname : disk.names path' with _ | file'
      · rw [hname, Option.getD_none] at hcreated
        omega
      · rw [hname, Option.getD_some] at hcreated
        rw [heq]
        exact h.only path' (hcreated ▸ hname)
    · exact h.only other hother

theorem Kept.refl (disk : Disk) (path : String) : disk.Kept disk path := fun _ h => ⟨h, rfl⟩

theorem Kept.unlink (disk : Disk) (path path' : String) : disk.Kept (disk.unlink path') path := by
  intro file h
  rw [names_unlink] at h
  split at h
  · cases h
  · exact ⟨h, rfl⟩

theorem Kept.create (hne : path ≠ path') : disk.Kept (disk.create path') path := by
  intro file h
  rw [names_create, if_neg hne] at h
  exact ⟨h, by rw [contents_create, if_neg (createdFile_ne hne h)]⟩

theorem Kept.writeAt {file : ℕ} (h : disk.Held path' file) (hne : path ≠ path') (offset : ℕ) (bytes : List UInt8) :
    disk.Kept (disk.writeAt file offset bytes) path := by
  intro file' hname
  have hfile : file' ≠ file := fun heq => hne (h.only path (heq ▸ hname))
  exact ⟨hname, by rw [contents_writeAt, if_neg hfile]⟩

theorem Kept.read {disk' : Disk} {bytes : List UInt8} (h : disk.Kept disk' path) (hread : disk'.read path = some bytes) :
    disk.read path = some bytes := by
  obtain ⟨file, hname, hcontents⟩ := Option.map_eq_some_iff.mp hread
  obtain ⟨hbefore, hsame⟩ := h file hname
  rw [Disk.read, hbefore, Option.map_some, ← hsame, hcontents]

/-- If there is a file under the name, these are its bytes. -/
def OnlyReads (disk : Disk) (path : String) (bytes : List UInt8) : Prop :=
  ∀ bytes', disk.read path = some bytes' → bytes' = bytes

theorem OnlyReads.kept {disk' : Disk} {bytes : List UInt8} (h : disk.OnlyReads path bytes)
    (hkept : disk.Kept disk' path) : disk'.OnlyReads path bytes :=
  fun bytes' hread => h bytes' (hkept.read hread)

/-- The bytes are written to a file opened under the name; it may have lost the name since. -/
structure Writes (disk : Disk) (path : String) (file : ℕ) (bytes : List UInt8) : Prop where
  held : disk.Held path file
  contents : ∀ file', disk.names path = some file' → file' = file ∧ disk.contents file' = bytes

variable {bytes : List UInt8}

theorem Writes.onlyReads (h : disk.Writes path file bytes) : disk.OnlyReads path bytes := by
  intro bytes' hread
  obtain ⟨file', hname, hcontents⟩ := Option.map_eq_some_iff.mp hread
  exact hcontents ▸ (h.contents file' hname).2

theorem Writes.created : (disk.create path).Writes path (disk.createdFile path) [] := by
  refine ⟨.created, fun file' hname => ?_⟩
  rw [names_create, if_pos rfl] at hname
  obtain rfl := Option.some.inj hname
  exact ⟨rfl, by rw [contents_create, if_pos rfl]⟩

theorem Writes.kept {disk' : Disk} (h : disk.Writes path file bytes) (hkept : disk.Kept disk' path)
    (hheld : disk'.Held path file) : disk'.Writes path file bytes := by
  refine ⟨hheld, fun file' hname => ?_⟩
  obtain ⟨hbefore, hsame⟩ := hkept file' hname
  obtain ⟨heq, hcontents⟩ := h.contents file' hbefore
  exact ⟨heq, hsame.trans hcontents⟩

/-- Bytes at the end. -/
theorem Writes.writeAt (h : disk.Writes path file bytes) (chunk : List UInt8) :
    (disk.writeAt file bytes.length chunk).Writes path file (bytes ++ chunk) := by
  refine ⟨h.held.writeAt _ _, fun file' hname => ?_⟩
  obtain ⟨heq, hcontents⟩ := h.contents file' hname
  refine ⟨heq, ?_⟩
  rw [contents_writeAt, if_pos heq, ← heq, hcontents, patch_length]

/-! ## Files that are to stay -/

/-- The disk holds the files, each under a name of its own. -/
structure Holds (disk : Disk) (files : List (String × List UInt8)) : Prop where
  nodup : (files.map Prod.fst).Nodup
  read : ∀ e ∈ files, disk.read e.1 = some e.2

variable {files files' : List (String × List UInt8)}

theorem Holds.subperm (h : disk.Holds files) (hsub : files'.Subperm files) : disk.Holds files' := by
  obtain ⟨kept, hperm, hsublist⟩ := hsub
  refine ⟨?_, fun e he => h.read e (hsublist.subset (hperm.mem_iff.mpr he))⟩
  rw [← (hperm.map Prod.fst).nodup_iff]
  exact h.nodup.sublist (hsublist.map Prod.fst)

theorem Holds.perm (h : disk.Holds files) (hperm : files'.Perm files) : disk.Holds files' :=
  h.subperm hperm.subperm

/-- A new file under a name that none of them has. -/
theorem Holds.create (h : disk.Holds files) (hpath : path ∉ files.map Prod.fst) :
    (disk.create path).Holds ((path, []) :: files) := by
  refine ⟨List.nodup_cons.mpr ⟨hpath, h.nodup⟩, fun e he => ?_⟩
  rcases List.mem_cons.mp he with rfl | he
  · rw [Disk.read, names_create, if_pos rfl, Option.map_some, contents_create, if_pos rfl]
  · have hne : e.1 ≠ path := fun heq => hpath (heq ▸ List.mem_map_of_mem he)
    obtain ⟨file, hname, hcontents⟩ := Option.map_eq_some_iff.mp (h.read e he)
    rw [Disk.read, names_create, if_neg hne, hname, Option.map_some, contents_create,
      if_neg (createdFile_ne hne hname), hcontents]

/-- Bytes at the end of one of them. -/
theorem Holds.write {written : List UInt8} (h : disk.Holds ((path, written) :: files))
    (hname : disk.names path = some file) (chunk : List UInt8) :
    (disk.writeAt file written.length chunk).Holds ((path, written ++ chunk) :: files) := by
  refine ⟨h.nodup, fun e he => ?_⟩
  rcases List.mem_cons.mp he with rfl | he
  · have hread := h.read (path, written) List.mem_cons_self
    have hcontents : disk.contents file = written := by
      rw [Disk.read, hname, Option.map_some] at hread
      exact Option.some.inj hread
    rw [Disk.read, names_writeAt, hname, Option.map_some, contents_writeAt, if_pos rfl, hcontents, patch_length]
  · have hpath : path ∉ files.map Prod.fst := (List.nodup_cons.mp h.nodup).1
    have hne : e.1 ≠ path := fun heq => hpath (heq ▸ List.mem_map_of_mem he)
    obtain ⟨file', hname', hcontents⟩ := Option.map_eq_some_iff.mp (h.read e (List.mem_cons_of_mem _ he))
    have hfile : file' ≠ file := fun heq => hne (disk.names_inj e.1 path file (heq ▸ hname') hname)
    rw [Disk.read, names_writeAt, hname', Option.map_some, contents_writeAt, if_neg hfile, hcontents]

/-- A name that none of them has is taken away. -/
theorem Holds.unlink (h : disk.Holds files) (hpath : path ∉ files.map Prod.fst) :
    (disk.unlink path).Holds files := by
  refine ⟨h.nodup, fun e he => ?_⟩
  have hne : e.1 ≠ path := fun heq => hpath (heq ▸ List.mem_map_of_mem he)
  rw [Disk.read, names_unlink, if_neg hne]
  exact h.read e he

end Disk
