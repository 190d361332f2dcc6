import Mathlib.Data.List.Nodup
import Mathlib.Data.List.Pairwise
import Mathlib.Logic.Function.Basic

/-!
# The files of a discarded connection

`discard_db` closes the files of a connection that was carried across a fork. It asks
SQLite for each of them.

## Implementation notes

A file is what SQLite has a `sqlite3_file` for. A database without a B-tree, such as `temp`
before it is used, has no files. `sqlite3_db_release_memory` leaves the files alone.
-/

namespace Sqlite3Ruby.Discard

/-! ## SQLite -/

/-- The files of a database: the second is the journal, or the WAL file. -/
structure Btree (File : Type) where
  main : File
  journal : File

structure Schema (File : Type) where
  name : List UInt8
  btree : Option (Btree File)

def Schema.files {File : Type} (s : Schema File) : List File :=
  s.btree.toList.flatMap fun b => [b.main, b.journal]

/-- A connection, which has one database at least. Each has its own name and files. -/
structure Connection (File : Type) where
  main : Schema File
  others : List (Schema File)
  names_nodup : ((main :: others).map Schema.name).Nodup
  files_nodup : ((main :: others).flatMap Schema.files).Nodup

namespace Connection

variable {File : Type}

def schemas (c : Connection File) : List (Schema File) := c.main :: c.others

def files (c : Connection File) : List File := c.schemas.flatMap Schema.files

/-- `sqlite3_db_name`. -/
def dbName (c : Connection File) (n : Nat) : Option (List UInt8) := c.schemas[n]?.map Schema.name

/-- The database of a name, of NULL the main one. -/
def schema (c : Connection File) : Option (List UInt8) → Option (Schema File)
  | none => some c.main
  | some name => c.schemas.find? fun s => s.name = name

end Connection

/-- The operations of `sqlite3_file_control` that are used. -/
inductive FileControl
  | filePointer
  | journalPointer

/-- `sqlite3_file_control`: the file, if the status is zero. -/
def sqlite3FileControl {File : Type} (c : Connection File) (name : Option (List UInt8))
    (op : FileControl) : Option File :=
  ((c.schema name).bind Schema.btree).map fun b =>
    match op with
    | .filePointer => b.main
    | .journalPointer => b.journal

/-- The files of the process: those with `pMethods`, and the calls of `xClose`. -/
structure Files (File : Type) where
  hasMethods : File → Bool
  closed : List File

section Files

variable {File : Type} [DecidableEq File]

/-- `sfile->pMethods->xClose(sfile)`. -/
def Files.xClose (m : Files File) (f : File) : Files File where
  hasMethods := Function.update m.hasMethods f false
  closed := m.closed ++ [f]

/-- `if (status == 0 && sfile->pMethods != NULL)`. -/
def Files.closeFile (m : Files File) : Option File → Files File
  | some f => if m.hasMethods f then m.xClose f else m
  | none => m

end Files

/-! ## The function -/

/-- `SQLITE3_RB_DATABASE_DISCARDED`. -/
def databaseDiscarded : Nat := 2

/-- What `discard_db` sets in the context struct. -/
structure Context (File : Type) where
  db : Option (Connection File)
  flags : Nat

section Function

variable {File : Type} [DecidableEq File]

/-- The `while` loop over the names of the databases. -/
def closeMainFiles (c : Connection File) (jDb : Nat) (m : Files File) : Files File :=
  match h : c.dbName jDb with
  | some name =>
    closeMainFiles c (jDb + 1) (m.closeFile (sqlite3FileControl c (some name) .filePointer))
  | none => m
termination_by c.schemas.length - jDb
decreasing_by
  have hlt : jDb < c.schemas.length := by
    by_contra hge
    rw [Connection.dbName, List.getElem?_eq_none (Nat.not_lt.mp hge)] at h
    cases h
  omega

/-- `discard_db` of the connection `ctx->db`, with `HAVE_SQLITE3_DB_NAME` or without. -/
def discardDb (haveDbName : Bool) (c : Connection File) (flags : Nat) (m : Files File) :
    Context File × Files File :=
  let m := if haveDbName then closeMainFiles c 0 m
    else m.closeFile (sqlite3FileControl c none .filePointer)
  let m := m.closeFile (sqlite3FileControl c none .journalPointer)
  ({ db := none, flags := flags ||| databaseDiscarded }, m)

/-! ## What it closes -/

/-- Each file that was open is closed once, no other is closed, and the context struct
says that the connection is gone. -/
structure ClosesFiles (c : Connection File) (m : Files File)
    (result : Context File × Files File) : Prop where
  closed : ∀ f, result.2.closed.count f =
    m.closed.count f + if f ∈ c.files ∧ m.hasMethods f = true then 1 else 0
  handle : result.1.db = none
  flag : result.1.flags &&& databaseDiscarded ≠ 0

end Function

section Databases

variable {File : Type} {c : Connection File} {s t : Schema File} {b : Btree File} {f : File}

/-! ## Names and files -/

theorem mem_files_iff : f ∈ s.files ↔ ∃ b, s.btree = some b ∧ (f = b.main ∨ f = b.journal) := by
  simp [Schema.files]

theorem schema_name (hs : s ∈ c.schemas) : c.schema (some s.name) = some s := by
  rw [Connection.schema]
  cases hfind : c.schemas.find? fun t => t.name = s.name with
  | none => exact absurd (List.find?_eq_none.mp hfind s hs) (by simp)
  | some t =>
    have hname : t.name = s.name := by simpa using List.find?_some hfind
    have ht := List.mem_of_find?_eq_some hfind
    exact congrArg some (List.inj_on_of_nodup_map c.names_nodup ht hs hname)

/-- No two databases share a file. -/
theorem eq_of_mem_files (hs : s ∈ c.schemas) (ht : t ∈ c.schemas) (hfs : f ∈ s.files)
    (hft : f ∈ t.files) : s = t := by
  by_contra hne
  have hdisjoint := (List.nodup_flatMap.mp c.files_nodup).2
  have hsymm : Std.Symm (Function.onFun List.Disjoint (Schema.files : Schema File → List File)) :=
    ⟨fun _ _ h _ hfs hft => h hft hfs⟩
  exact hdisjoint.forall hs ht hne hfs hft

theorem main_ne_journal (hs : s ∈ c.schemas) (hb : s.btree = some b) : b.main ≠ b.journal := by
  have hnodup := (List.nodup_flatMap.mp c.files_nodup).1 s hs
  rw [Schema.files, hb] at hnodup
  simpa using hnodup

theorem main_not_mem_others (c : Connection File) : c.main ∉ c.others := by
  have hnodup := c.names_nodup
  rw [List.map_cons, List.nodup_cons] at hnodup
  exact fun hmem => hnodup.1 (List.mem_map_of_mem hmem)

/-! ## The files that are asked for -/

/-- The main files, where a database has one. -/
def mainFiles (schemas : List (Schema File)) : List File :=
  schemas.flatMap fun s => (s.btree.map Btree.main).toList

/-- The files that `discard_db` asks for. -/
def askedFiles (haveDbName : Bool) (c : Connection File) : List File :=
  (if haveDbName then mainFiles c.schemas else (c.main.btree.map Btree.main).toList) ++
    (c.main.btree.map Btree.journal).toList

theorem mem_map_toList_iff {btree : Option (Btree File)} {file : Btree File → File} :
    f ∈ (btree.map file).toList ↔ ∃ b, btree = some b ∧ f = file b := by
  cases btree with
  | none => simp
  | some b => simp

theorem mem_askedFiles_iff {haveDbName : Bool} : f ∈ askedFiles haveDbName c ↔
    (∃ s ∈ c.schemas, (haveDbName = true ∨ s = c.main) ∧ ∃ b, s.btree = some b ∧ f = b.main) ∨
      ∃ b, c.main.btree = some b ∧ f = b.journal := by
  rw [askedFiles, List.mem_append, mem_map_toList_iff]
  cases haveDbName with
  | true => simp only [if_true, mainFiles, List.mem_flatMap, mem_map_toList_iff, true_or, true_and]
  | false =>
    rw [if_neg Bool.false_ne_true, mem_map_toList_iff]
    simp [Connection.schemas, main_not_mem_others c]

theorem askedFiles_subset (haveDbName : Bool) (c : Connection File) :
    askedFiles haveDbName c ⊆ c.files := by
  intro f hf
  apply List.mem_flatMap.mpr
  obtain ⟨s, hs, -, b, hb, hfile⟩ | ⟨b, hb, hfile⟩ := mem_askedFiles_iff.mp hf
  · exact ⟨s, hs, mem_files_iff.mpr ⟨b, hb, Or.inl hfile⟩⟩
  · exact ⟨c.main, List.mem_cons_self .., mem_files_iff.mpr ⟨b, hb, Or.inr hfile⟩⟩

/-- Of the files of another database than the main one, only the main file is asked for. -/
theorem main_of_mem_askedFiles {haveDbName : Bool} (hs : s ∈ c.others) (hb : s.btree = some b)
    (hf : f ∈ s.files) (hasked : f ∈ askedFiles haveDbName c) : haveDbName = true ∧ f = b.main := by
  have hschema : s ∈ c.schemas := List.mem_cons_of_mem _ hs
  have hother : s ≠ c.main := fun heq => main_not_mem_others c (heq ▸ hs)
  obtain ⟨t, ht, hname, b', hb', hfile⟩ | ⟨b', hb', hfile⟩ := mem_askedFiles_iff.mp hasked
  · obtain rfl := eq_of_mem_files hschema ht hf (mem_files_iff.mpr ⟨b', hb', Or.inl hfile⟩)
    obtain rfl := Option.some.inj (hb.symm.trans hb')
    exact ⟨hname.resolve_right hother, hfile⟩
  · exact absurd (eq_of_mem_files hschema (List.mem_cons_self ..) hf
      (mem_files_iff.mpr ⟨b', hb', Or.inr hfile⟩)) hother

/-- The files of the main database are asked for, and the main files of the others if the names
can be had. -/
theorem mem_askedFiles_of_mem_files {haveDbName : Bool} (hf : f ∈ c.files) :
    f ∈ askedFiles haveDbName c ∨ ∃ s ∈ c.others, ∃ b, s.btree = some b ∧
      (f = b.journal ∨ haveDbName = false ∧ f = b.main) := by
  obtain ⟨s, hs, hfs⟩ := List.mem_flatMap.mp hf
  obtain ⟨b, hb, hfile⟩ := mem_files_iff.mp hfs
  rw [mem_askedFiles_iff]
  obtain rfl | hother := List.mem_cons.mp hs
  · obtain rfl | rfl := hfile
    · exact Or.inl (Or.inl ⟨c.main, hs, Or.inr rfl, b, hb, rfl⟩)
    · exact Or.inl (Or.inr ⟨b, hb, rfl⟩)
  · obtain rfl | rfl := hfile
    · cases haveDbName with
      | true => exact Or.inl (Or.inl ⟨s, hs, Or.inl rfl, b, hb, rfl⟩)
      | false => exact Or.inr ⟨s, hother, b, hb, Or.inr ⟨rfl, rfl⟩⟩
    · exact Or.inr ⟨s, hother, b, hb, Or.inl rfl⟩

end Databases

section Closing

variable {File : Type} [DecidableEq File] {c : Connection File} {m : Files File}

/-! ## One file after the other -/

/-- The files that are closed if they are open, one after the other. -/
def closeEach (fs : List File) (m : Files File) : Files File :=
  fs.foldl (fun m f => m.closeFile (some f)) m

theorem closeFile_count (f g : File) :
    (m.closeFile (some f)).closed.count g =
      m.closed.count g + if g = f ∧ m.hasMethods g = true then 1 else 0 := by
  rw [Files.closeFile]
  by_cases hopen : m.hasMethods f = true
  · rw [if_pos hopen, Files.xClose, List.count_append, List.count_singleton]
    by_cases heq : g = f
    · subst heq
      simp [hopen]
    · simp [heq, Ne.symm heq]
  · rw [if_neg hopen]
    by_cases heq : g = f
    · subst heq
      simp [hopen]
    · simp [heq]

theorem closeFile_hasMethods (f g : File) :
    (m.closeFile (some f)).hasMethods g = (m.hasMethods g && !decide (g = f)) := by
  rw [Files.closeFile]
  by_cases heq : g = f
  · subst heq
    by_cases hopen : m.hasMethods g = true
    · simp [hopen, Files.xClose]
    · simp [hopen]
  · by_cases hopen : m.hasMethods f = true
    · simp [hopen, Files.xClose, heq]
    · simp [hopen, heq]

/-- A file is closed once, however often it comes up. -/
theorem closeEach_count (fs : List File) (m : Files File) (f : File) :
    (closeEach fs m).closed.count f =
      m.closed.count f + if f ∈ fs ∧ m.hasMethods f = true then 1 else 0 := by
  induction fs generalizing m with
  | nil => simp [closeEach]
  | cons g fs ih =>
    rw [closeEach, List.foldl_cons, ← closeEach, ih, closeFile_count, closeFile_hasMethods]
    by_cases heq : f = g
    · simp [heq]
    · simp [heq]

theorem closeEach_append (fs gs : List File) (m : Files File) :
    closeEach (fs ++ gs) m = closeEach gs (closeEach fs m) := List.foldl_append

theorem closeEach_toList (o : Option File) (m : Files File) :
    closeEach o.toList m = m.closeFile o := by
  cases o with
  | none => rfl
  | some f => rfl

theorem closeMainFiles_some {jDb : Nat} {name : List UInt8} (h : c.dbName jDb = some name) :
    closeMainFiles c jDb m =
      closeMainFiles c (jDb + 1) (m.closeFile (sqlite3FileControl c (some name) .filePointer)) := by
  rw [closeMainFiles]
  split
  · rename_i found hfound
    obtain rfl := Option.some.inj (hfound.symm.trans h)
    rfl
  · rename_i hnone
    cases hnone.symm.trans h

theorem closeMainFiles_none {jDb : Nat} (h : c.dbName jDb = none) : closeMainFiles c jDb m = m := by
  rw [closeMainFiles]
  split
  · rename_i found hfound
    cases hfound.symm.trans h
  · rfl

/-- The loop comes to every database that is left. -/
theorem closeMainFiles_eq (c : Connection File) (jDb : Nat) (m : Files File) :
    closeMainFiles c jDb m = closeEach (mainFiles (c.schemas.drop jDb)) m := by
  induction jDb, m using closeMainFiles.induct c with
  | case1 jDb m name hname ih =>
    obtain ⟨s, hs, rfl⟩ := Option.map_eq_some_iff.mp hname
    have hfile : sqlite3FileControl c (some s.name) .filePointer = s.btree.map Btree.main := by
      rw [sqlite3FileControl, schema_name (List.mem_of_getElem? hs), Option.bind_some]
    have hdrop : c.schemas.drop jDb = s :: c.schemas.drop (jDb + 1) := by
      obtain ⟨hlt, rfl⟩ := List.getElem?_eq_some_iff.mp hs
      exact List.drop_eq_getElem_cons hlt
    have hfiles : mainFiles (c.schemas.drop jDb) =
        (s.btree.map Btree.main).toList ++ mainFiles (c.schemas.drop (jDb + 1)) := by
      rw [hdrop]
      exact List.flatMap_cons
    rw [closeMainFiles_some hname, ih, hfiles, closeEach_append, closeEach_toList, hfile]
  | case2 jDb m hname =>
    have hend : c.schemas.length ≤ jDb := by
      rw [Connection.dbName, Option.map_eq_none_iff, List.getElem?_eq_none_iff] at hname
      exact hname
    rw [closeMainFiles_none hname, List.drop_eq_nil_of_le hend]
    rfl

theorem discardDb_files (haveDbName : Bool) (c : Connection File) (flags : Nat) (m : Files File) :
    (discardDb haveDbName c flags m).2 = closeEach (askedFiles haveDbName c) m := by
  rw [askedFiles, closeEach_append, closeEach_toList]
  cases haveDbName with
  | true =>
    rw [if_pos rfl, ← List.drop_zero (l := c.schemas), ← closeMainFiles_eq]
    rfl
  | false =>
    rw [if_neg Bool.false_ne_true, closeEach_toList]
    rfl

/-! ## Which files are left open -/

/-- A bit that was just set. -/
theorem or_and_ne_zero (flags : Nat) {bit : Nat} (hbit : bit ≠ 0) : (flags ||| bit) &&& bit ≠ 0 := by
  rw [Nat.and_or_distrib_right, Nat.and_self, ne_eq, Nat.or_eq_zero_iff]
  exact fun h => hbit h.2

/-- What is closed is right when all files that are open are asked for. -/
theorem closesFiles_iff (haveDbName : Bool) (c : Connection File) (flags : Nat)
    (m : Files File) :
    ClosesFiles c m (discardDb haveDbName c flags m) ↔
      ∀ f ∈ c.files, m.hasMethods f = true → f ∈ askedFiles haveDbName c := by
  constructor
  · rintro ⟨hclosed, -, -⟩ f hf hopen
    by_contra hnot
    have hcount := hclosed f
    rw [discardDb_files, closeEach_count] at hcount
    simp [hnot, hf, hopen] at hcount
  · intro hasked
    refine ⟨fun f => ?_, rfl, or_and_ne_zero flags (by decide)⟩
    rw [discardDb_files, closeEach_count]
    congr 1
    apply if_congr _ rfl rfl
    exact ⟨fun h => ⟨askedFiles_subset haveDbName c h.1, h.2⟩, fun h => ⟨hasked f h.1 h.2, h.2⟩⟩

/-- Of the files of a connection, only those of other databases than the main one are left
open: their journals, and without `sqlite3_db_name` their main files. -/
theorem discardDb_closes_iff (haveDbName : Bool) (c : Connection File) (flags : Nat)
    (m : Files File) :
    ClosesFiles c m (discardDb haveDbName c flags m) ↔
      ∀ s ∈ c.others, ∀ b, s.btree = some b → m.hasMethods b.journal = false ∧
        (haveDbName = false → m.hasMethods b.main = false) := by
  rw [closesFiles_iff]
  constructor
  · intro hasked s hs b hb
    have hschema : s ∈ c.schemas := List.mem_cons_of_mem _ hs
    have honly {f : File} (hf : f ∈ s.files) (hopen : m.hasMethods f = true) :
        haveDbName = true ∧ f = b.main :=
      main_of_mem_askedFiles hs hb hf (hasked f (List.mem_flatMap.mpr ⟨s, hschema, hf⟩) hopen)
    constructor
    · by_contra hopen
      have hfile := (honly (mem_files_iff.mpr ⟨b, hb, Or.inr rfl⟩)
        ((Bool.not_eq_false _).mp hopen)).2
      exact main_ne_journal hschema hb hfile.symm
    · intro hwithout
      by_contra hopen
      have hname := (honly (mem_files_iff.mpr ⟨b, hb, Or.inl rfl⟩)
        ((Bool.not_eq_false _).mp hopen)).1
      rw [hwithout] at hname
      cases hname
  · intro hclosed f hf hopen
    obtain hasked | ⟨s, hs, b, hb, hfile⟩ := mem_askedFiles_of_mem_files hf
    · exact hasked
    · obtain ⟨hjournal, hmain⟩ := hclosed s hs b hb
      obtain rfl | ⟨hwithout, rfl⟩ := hfile
      · rw [hjournal] at hopen
        cases hopen
      · rw [hmain hwithout] at hopen
        cases hopen

end Closing

/-- A main database with its file, and an attached one in a transaction. -/
def attached : Connection Nat where
  main := ⟨[109], some ⟨0, 1⟩⟩
  others := [⟨[97], some ⟨2, 3⟩⟩]
  names_nodup := by decide
  files_nodup := by decide

/-- The journal of an attached database is left open. -/
theorem attached_journal_left_open :
    ¬ ∀ (File : Type) [DecidableEq File] (haveDbName : Bool) (c : Connection File) (flags : Nat)
        (m : Files File),
      ClosesFiles c m (discardDb haveDbName c flags m) := by
  intro hclaim
  have hcloses := hclaim Nat true attached 0 ⟨fun f => f = 0 ∨ f = 2 ∨ f = 3, []⟩
  rw [closesFiles_iff] at hcloses
  exact absurd (hcloses 3 (by decide) (by decide)) (by decide)

end Sqlite3Ruby.Discard
