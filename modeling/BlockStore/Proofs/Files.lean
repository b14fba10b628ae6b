import BlockStore.Workspace

/-!
# Files in a workspace

Making a file anew puts it at one place in the tree. A path that has led there leads there again, because
on the way to it there are directories only, and a directory stays one. So a file can be read and made
anew any number of times by one path, and each time it is the last contents that count.

A path can be followed to a file in ways that a file cannot be made, and a file can be made where there is
none to be followed to. `Workspace.Names` is what both come down to: a name in a directory that is there.

## Main definitions

* `Workspace.withFile`: the workspace with a file at a place.
* `Workspace.HasFile`: a file is at a place.
* `Workspace.find`: what is found at a path.
* `Workspace.Names`: a path leads to a name in a directory.

## Main results

* `FileTree.at?_setAt`, `setAt_setAt`, `setAt_at?`: what is set is there, the last one counts, and what is
  there already changes nothing.
* `Workspace.write_eq`: a file to which a path leads can be made anew.
* `Workspace.of_write`: a file that was made is where its path leads.
-/

namespace BlockStore

/-- Of two steps that succeed one after the other both do. -/
theorem ok_of_bind {ε α β : Type} {x : Except ε α} {f : α → Except ε β} {b : β} (h : x >>= f = .ok b) :
    ∃ a, x = .ok a ∧ f a = .ok b := by
  cases x with
  | error e => cases h
  | ok a => exact ⟨a, rfl, h⟩

namespace FileTree

variable {entries : List (String × FileTree)} {name : String} {t u : FileTree}

theorem lookup_cons (entry : String × FileTree) (rest : List (String × FileTree)) (name : String) :
    (entry :: rest).lookup name = if name = entry.1 then some entry.2 else rest.lookup name := by
  by_cases h : name = entry.1
  · subst h
    rw [if_pos rfl]
    exact List.lookup_cons_self
  · rw [if_neg h, List.lookup_cons, beq_false_of_ne h]

theorem lookup_setEntry (entries : List (String × FileTree)) (name other : String) (t : FileTree) :
    (setEntry entries name t).lookup other = if other = name then some t else entries.lookup other := by
  induction entries with
  | nil => exact lookup_cons _ _ _
  | cons entry rest ih =>
    rw [setEntry, lookup_cons]
    by_cases hn : entry.1 = name
    · subst hn
      rw [if_pos rfl, lookup_cons]
      split <;> rfl
    · rw [if_neg hn, lookup_cons, ih]
      by_cases ho : other = entry.1
      · subst ho
        rw [if_pos rfl, if_neg hn, if_pos rfl]
      · rw [if_neg ho, if_neg ho]

theorem setEntry_setEntry (entries : List (String × FileTree)) (name : String) (t u : FileTree) :
    setEntry (setEntry entries name t) name u = setEntry entries name u := by
  induction entries with
  | nil => simp [setEntry]
  | cons entry rest ih =>
    obtain ⟨n, t'⟩ := entry
    by_cases hn : n = name
    · simp [setEntry, hn]
    · simp [setEntry, hn, ih]

/-- An entry that is there already changes nothing. -/
theorem setEntry_of_lookup (h : entries.lookup name = some t) : setEntry entries name t = entries := by
  induction entries with
  | nil => cases h
  | cons entry rest ih =>
    rw [lookup_cons] at h
    rw [setEntry]
    by_cases hn : entry.1 = name
    · subst hn
      rw [if_pos rfl] at h
      cases h
      exact if_pos rfl
    · rw [if_neg (Ne.symm hn)] at h
      rw [if_neg hn, ih h]

/-! ### Places in a tree -/

theorem at?_cons (t : FileTree) (name : String) (place : List String) :
    t.at? (name :: place) = (t.entries.lookup name).bind (·.at? place) := rfl

theorem at?_append (t : FileTree) (place rest : List String) :
    t.at? (place ++ rest) = (t.at? place).bind (·.at? rest) := by
  induction place generalizing t with
  | nil => rfl
  | cons name place ih =>
    rw [List.cons_append, at?_cons, at?_cons]
    cases t.entries.lookup name with
    | none => rfl
    | some u => exact ih u

/-- What was set at a place is there. -/
theorem at?_setAt (t u : FileTree) (place : List String) : (t.setAt u place).at? place = some u := by
  induction place generalizing t with
  | nil => rfl
  | cons name place ih =>
    rw [setAt, at?_cons, entries, lookup_setEntry, if_pos rfl]
    exact ih _

/-- Of two things set at one place the last is there. -/
theorem setAt_setAt (t u u' : FileTree) (place : List String) :
    (t.setAt u place).setAt u' place = t.setAt u' place := by
  induction place generalizing t with
  | nil => rfl
  | cons name place ih =>
    rw [setAt, setAt, setAt]
    simp only [entries, lookup_setEntry, if_true, Option.getD_some, setEntry_setEntry, ih]

/-- Setting what is there already changes nothing. -/
theorem setAt_at? {place : List String} (h : t.at? place = some u) : t.setAt u place = t := by
  induction place generalizing t with
  | nil => exact (Option.some.inj h).symm
  | cons name place ih =>
    rw [at?_cons] at h
    cases t with
    | file image => cases h
    | directory entries =>
      cases hlookup : entries.lookup name with
      | none =>
        rw [FileTree.entries, hlookup] at h
        cases h
      | some inner =>
        rw [FileTree.entries, hlookup] at h
        simp only [setAt, FileTree.entries, hlookup, Option.getD_some]
        rw [ih h, setEntry_of_lookup hlookup]

/-- A directory is at a place. -/
def HasDirectory (t : FileTree) (place : List String) : Prop := ∃ entries, t.at? place = some (.directory entries)

/-- A directory stays one when something is set where there was no directory. -/
theorem HasDirectory.setAt {place other : List String} (h : t.HasDirectory other)
    (hplace : ¬ t.HasDirectory place) (u : FileTree) : (t.setAt u place).HasDirectory other := by
  induction place generalizing t other with
  | nil =>
    cases t with
    | directory entries => exact absurd ⟨entries, rfl⟩ hplace
    | file image =>
      obtain ⟨entries, h⟩ := h
      cases other <;> cases h
  | cons name place ih =>
    cases other with
    | nil => exact ⟨_, rfl⟩
    | cons name' other =>
      obtain ⟨entries, h⟩ := h
      rw [at?_cons] at h
      rw [FileTree.setAt, HasDirectory, at?_cons, FileTree.entries, lookup_setEntry]
      by_cases hname : name' = name
      · subst hname
        rw [if_pos rfl]
        cases hlookup : t.entries.lookup name' with
        | none =>
          rw [hlookup] at h
          cases h
        | some inner =>
          rw [hlookup] at h
          refine ih ⟨entries, h⟩ fun hinner => hplace ?_
          rw [HasDirectory, at?_cons, hlookup]
          exact hinner
      · rw [if_neg hname]
        exact ⟨entries, h⟩

/-- What is above a directory is a directory. -/
theorem HasDirectory.dropLast {place : List String} (h : t.HasDirectory place) :
    t.HasDirectory place.dropLast := by
  rcases List.eq_nil_or_concat place with rfl | ⟨above, name, rfl⟩
  · exact h
  · rw [List.concat_eq_append, List.dropLast_concat]
    obtain ⟨entries, h⟩ := h
    rw [List.concat_eq_append, at?_append] at h
    cases habove : t.at? above with
    | none =>
      rw [habove] at h
      cases h
    | some u =>
      rw [habove] at h
      cases u with
      | file image => cases h
      | directory entries => exact ⟨entries, habove⟩

end FileTree

/-! ### Following a path -/

namespace Workspace

/-- A path has a name in it, if it is only an empty one. -/
theorem namesIn_ne_nil (path : String) : namesIn path ≠ [] := by
  simp [namesIn]

/-- The workspace with a file at a place. -/
def withFile (w : Workspace) (place : List String) (image : Image) : Workspace :=
  { w with root := w.root.setAt (.file image) place }

/-- A file with these contents is at a place. -/
def HasFile (w : Workspace) (place : List String) (image : Image) : Prop :=
  w.root.at? place = some (.file image)

/-- A name that stands for something in a directory, and neither for the directory itself nor for the one
above it. -/
def Proper (name : String) : Prop := name ≠ "" ∧ name ≠ "." ∧ name ≠ ".."

/-- A path leads to a name in a directory. Whether anything has the name is left open. -/
structure Names (w : Workspace) (path : String) (dir : List String) (name : String) : Prop where
  follows : ∃ start names, w.parts path = .ok (start, names ++ [name]) ∧ w.follow start names = .ok dir
  directory : w.root.HasDirectory dir
  proper : Proper name
  short : name.utf8ByteSize ≤ maxNameSize

variable {w w' : Workspace} {path : String} {place dir : List String} {name : String} {image : Image}

theorem withFile_withFile (w : Workspace) (place : List String) (image image' : Image) :
    (w.withFile place image).withFile place image' = w.withFile place image' := by
  simp only [withFile, FileTree.setAt_setAt]

theorem hasFile_withFile (w : Workspace) (place : List String) (image : Image) :
    (w.withFile place image).HasFile place image := FileTree.at?_setAt _ _ _

/-- Making a file anew with the contents that it has changes nothing. -/
theorem HasFile.withFile_eq (h : w.HasFile place image) : w.withFile place image = w := by
  rw [withFile, FileTree.setAt_at? h]

theorem HasFile.unique {image' : Image} (h : w.HasFile place image) (h' : w.HasFile place image') :
    image' = image := by
  rw [HasFile, h] at h'
  cases h'
  rfl

theorem HasFile.not_hasDirectory (h : w.HasFile place image) : ¬ w.root.HasDirectory place := by
  rintro ⟨entries, hdir⟩
  rw [HasFile, hdir] at h
  cases h

/-- What is read is the file that the path leads to. -/
theorem read_eq (hpath : w.resolve path = .ok place) (h : w.HasFile place image) :
    w.read path = .ok image := by
  simp only [read, hpath, bind, Except.bind]
  rw [h]
  rfl

theorem of_read (h : w.read path = .ok image) :
    ∃ place, w.resolve path = .ok place ∧ w.HasFile place image := by
  obtain ⟨place, hpath, h⟩ := ok_of_bind h
  refine ⟨place, hpath, ?_⟩
  rw [HasFile]
  split at h <;> cases h
  assumption

/-- What is found at a path. -/
def find (w : Workspace) (path : String) : Option (Except SystemError ByteArray) :=
  if w.has path then some ((w.read path).map Image.toBytes) else none

/-- What can be read is there. -/
theorem has_of_read (h : w.read path = .ok image) : w.has path := by
  obtain ⟨place, hpath, hfile⟩ := of_read h
  simp only [has, hpath]
  rw [hfile]
  rfl

theorem find_of_read (h : w.read path = .ok image) : w.find path = some (.ok image.toBytes) := by
  rw [find, if_pos (has_of_read h), h]
  rfl

/-! ### One name after the other -/

theorem step_eq (h : w.root.HasDirectory dir) (name : String) :
    w.step dir name =
      if maxNameSize < name.utf8ByteSize then .error .nameTooLong
      else if name = "" ∨ name = "." then .ok dir
      else if name = ".." then .ok dir.dropLast
      else .ok (dir ++ [name]) := by
  obtain ⟨entries, h⟩ := h
  rw [step, h]

/-- A name is followed from a directory only. -/
theorem hasDirectory_of_step (h : w.step dir name = .ok place) : w.root.HasDirectory dir := by
  rw [step] at h
  cases hat : w.root.at? dir with
  | none => simp [hat] at h
  | some t =>
    cases t with
    | file image => simp [hat] at h
    | directory entries => exact ⟨entries, hat⟩

/-- A name that leads from a directory to something else than a directory is a proper one. -/
theorem proper_of_step (h : w.step dir name = .ok place) (hplace : ¬ w.root.HasDirectory place) :
    Proper name ∧ name.utf8ByteSize ≤ maxNameSize ∧ place = dir ++ [name] := by
  have hdir := hasDirectory_of_step h
  rw [step_eq hdir] at h
  split at h
  · cases h
  rename_i hlong
  split at h
  · cases h
    exact absurd hdir hplace
  rename_i hsame
  split at h
  · cases h
    exact absurd hdir.dropLast hplace
  rename_i hup
  cases h
  exact ⟨⟨fun h => hsame (.inl h), fun h => hsame (.inr h), hup⟩, Nat.not_lt.1 hlong, rfl⟩

theorem step_of_proper (hdir : w.root.HasDirectory dir) (hname : Proper name)
    (hshort : name.utf8ByteSize ≤ maxNameSize) : w.step dir name = .ok (dir ++ [name]) := by
  obtain ⟨hempty, hsame, hup⟩ := hname
  rw [step_eq hdir, if_neg (Nat.not_lt.2 hshort), if_neg (not_or.2 ⟨hempty, hsame⟩), if_neg hup]

/-- A directory is the same place as the one that a point leads to. -/
theorem step_point (hdir : w.root.HasDirectory dir) : w.step dir "." = .ok dir := by
  rw [step_eq hdir, if_neg (by decide), if_pos (.inr rfl)]

theorem follow_concat (w : Workspace) (start names : List String) (name : String) :
    w.follow start (names ++ [name]) = (w.follow start names).bind fun dir => w.step dir name := by
  induction names generalizing start with
  | nil =>
    simp only [List.nil_append, follow, bind, Except.bind]
    cases w.step start name <;> rfl
  | cons first names ih =>
    simp only [List.cons_append, follow, bind, Except.bind]
    cases w.step start first with
    | error e => rfl
    | ok place => exact ih place

/-- A path that can be followed can be followed as long as no directory is lost. -/
theorem follow_mono (hkept : ∀ dir, w.root.HasDirectory dir → w'.root.HasDirectory dir)
    {start names : List String} (h : w.follow start names = .ok place) :
    w'.follow start names = .ok place := by
  induction names generalizing start with
  | nil => exact h
  | cons name names ih =>
    obtain ⟨next, hstep, h⟩ := ok_of_bind h
    have hdir := hasDirectory_of_step hstep
    have hstep' : w'.step start name = .ok next := by
      rw [step_eq (hkept _ hdir), ← step_eq hdir, hstep]
    rw [follow, hstep']
    exact ih h

/-! ### Where files can be -/

theorem exists_concat_of_parts {start names : List String} (h : w.parts path = .ok (start, names)) :
    ∃ init last, names = init ++ [last] := by
  have hne : names ≠ [] := by
    rw [parts] at h
    split at h
    · cases h
    split at h
    · cases h
    split at h
    · cases h
    cases h
    exact namesIn_ne_nil path
  exact ⟨_, _, (List.dropLast_concat_getLast hne).symm⟩

theorem trimEmpty_concat (names : List String) (hname : name ≠ "") :
    trimEmpty (names ++ [name]) = names ++ [name] := by
  simp [trimEmpty, hname]

theorem trimEmpty_isPrefix (names : List String) : trimEmpty names <+: names := by
  rw [trimEmpty, ← List.reverse_suffix, List.reverse_reverse]
  exact List.dropWhile_suffix _

/-- If a path ends in a proper name and not in slashes, nothing is trimmed from it. -/
theorem eq_concat_of_trimEmpty {names : List String} (hproper : Proper ((trimEmpty names).getLast?.getD "."))
    (hslash : ¬ ((trimEmpty names).length < names.length ∧
      (trimEmpty names).getLast? ∉ [some ".", some ".."])) :
    (trimEmpty names).dropLast ++ [(trimEmpty names).getLast?.getD "."] = names := by
  cases hlast : (trimEmpty names).getLast? with
  | none =>
    rw [hlast] at hproper
    exact absurd rfl hproper.2.1
  | some last =>
    rw [hlast] at hslash hproper
    have hall : names.length ≤ (trimEmpty names).length :=
      Nat.not_lt.1 fun hlt => hslash ⟨hlt, by simpa using hproper.2⟩
    obtain ⟨init, hkept⟩ := List.getLast?_eq_some_iff.1 hlast
    have hsame := (trimEmpty_isPrefix names).eq_of_length_le hall
    rw [Option.getD_some, hkept, List.dropLast_concat, ← hkept, hsame]

/-- A path that leads to a file leads to a name in a directory. -/
theorem names_of_resolve (h : w.resolve path = .ok place) (hplace : ¬ w.root.HasDirectory place) :
    ∃ dir name, w.Names path dir name ∧ place = dir ++ [name] := by
  obtain ⟨⟨start, names⟩, hparts, h⟩ := ok_of_bind h
  obtain ⟨init, last, rfl⟩ := exists_concat_of_parts hparts
  dsimp only at h
  rw [follow_concat] at h
  obtain ⟨dir, hdir, hstep⟩ := ok_of_bind h
  obtain ⟨hproper, hshort, hadded⟩ := proper_of_step hstep hplace
  exact ⟨dir, last, ⟨⟨start, init, hparts, hdir⟩, hasDirectory_of_step hstep, hproper, hshort⟩, hadded⟩

namespace Names

variable (h : w.Names path dir name)

include h

theorem resolve : w.resolve path = .ok (dir ++ [name]) := by
  obtain ⟨start, names, hparts, hfollow⟩ := h.follows
  simp only [Workspace.resolve, hparts, bind, Except.bind, follow_concat, hfollow]
  exact step_of_proper h.directory h.proper h.short

theorem target (hplace : ¬ w.root.HasDirectory (dir ++ [name])) :
    w.target path = .ok (dir ++ [name]) := by
  obtain ⟨start, names, hparts, hfollow⟩ := h.follows
  have hstep := step_of_proper h.directory h.proper h.short
  simp only [Workspace.target, hparts, bind, Except.bind, trimEmpty_concat names h.proper.1,
    List.dropLast_concat, hfollow, step_point h.directory, Nat.lt_irrefl, false_and, if_false,
    List.getLast?_concat, Option.getD_some, hstep]
  cases hat : w.root.at? (dir ++ [name]) with
  | none => rfl
  | some t =>
    cases t with
    | file image => rfl
    | directory entries => exact absurd ⟨entries, hat⟩ hplace

/-- The path leads there after a file was made where there was no directory. -/
theorem withFile (hplace : ¬ w.root.HasDirectory place) (image : Image) :
    (w.withFile place image).Names path dir name := by
  have hkept (other : List String) (hother : w.root.HasDirectory other) :
      (w.withFile place image).root.HasDirectory other := hother.setAt hplace _
  obtain ⟨start, names, hparts, hfollow⟩ := h.follows
  exact ⟨⟨start, names, hparts, follow_mono hkept hfollow⟩, hkept _ h.directory, h.proper, h.short⟩

end Names

/-- A file can be made only where a path leads to a name in a directory. -/
theorem names_of_target (h : w.target path = .ok place) :
    ¬ w.root.HasDirectory place ∧ ∃ dir name, w.Names path dir name ∧ place = dir ++ [name] := by
  obtain ⟨⟨start, names⟩, hparts, h⟩ := ok_of_bind h
  obtain ⟨base, hfollow, h⟩ := ok_of_bind h
  obtain ⟨dir, hbase, h⟩ := ok_of_bind h
  have hdir := hasDirectory_of_step hbase
  obtain rfl : base = dir := Except.ok.inj ((step_point hdir).symm.trans hbase)
  split at h
  · cases h
  rename_i hslash
  obtain ⟨found, hstep, h⟩ := ok_of_bind h
  split at h <;> cases h
  rename_i hat
  have hplace : ¬ w.root.HasDirectory place := fun ⟨entries, hentries⟩ => hat entries hentries
  obtain ⟨hproper, hshort, hadded⟩ := proper_of_step hstep hplace
  refine ⟨hplace, base, _, ⟨⟨start, (trimEmpty names).dropLast, ?_, hfollow⟩, hdir, hproper, hshort⟩,
    hadded⟩
  rw [hparts, eq_concat_of_trimEmpty hproper hslash]

/-- A file to which a path leads can be made anew. -/
theorem write_eq (hpath : w.resolve path = .ok place) (h : w.HasFile place image) (image' : Image) :
    w.write path image' = .ok (w.withFile place image') := by
  obtain ⟨dir, name, hnames, rfl⟩ := names_of_resolve hpath h.not_hasDirectory
  rw [write, hnames.target h.not_hasDirectory]
  rfl

/-- The path still leads to the file when it has been made anew. -/
theorem resolve_withFile (hpath : w.resolve path = .ok place) (h : w.HasFile place image) (image' : Image) :
    (w.withFile place image').resolve path = .ok place := by
  obtain ⟨dir, name, hnames, rfl⟩ := names_of_resolve hpath h.not_hasDirectory
  exact (hnames.withFile h.not_hasDirectory image').resolve

/-- A file that was made is where its path leads. -/
theorem of_write (h : w.write path image = .ok w') :
    ∃ place, w' = w.withFile place image ∧ w'.resolve path = .ok place := by
  obtain ⟨place, htarget, h⟩ := ok_of_bind h
  cases h
  obtain ⟨hplace, dir, name, hnames, rfl⟩ := names_of_target htarget
  exact ⟨_, rfl, (hnames.withFile hplace image).resolve⟩

/-- What is read after a file was made is what it was made of. -/
theorem read_of_write (h : w.write path image = .ok w') : w'.read path = .ok image := by
  obtain ⟨place, rfl, hpath⟩ := of_write h
  exact read_eq hpath (hasFile_withFile _ _ _)

end Workspace

end BlockStore
