import BlockStore.Proofs.Commands
import BlockStore.Proofs.Definitions

/-!
# Where settings come from

A setting that commands work with comes from the environment, the file of the project, the file of the user
or nowhere, in this order. The files are laid one over the other before anybody looks at types, so all that
has to have the right type is what is found in the end; but if that does not, nothing of either file counts.

A section may be written as an array, of which the settings are the items. Such a section is a value of the
file like any other: it is not merged with a section of the other file but replaces it, or is replaced by it.
Only sections that are tables in both files are merged setting by setting.

## Main definitions

* `Config.Setting`: the settings, with their sections, names and types.
* `Config.Holds`: the table that a file holds, if it holds one.
* `Config.given`, `Config.fromFiles`: the value of a setting in a file, and in two of them.
* `Config.RightTypes`: all settings in a table have the right types.
* `Config.Follows`: the settings come from the environment, from given values and from nowhere.

## Main results

* `Config.exists_ofTable_iff`: a table can be read if and only if it has the right types.
* `Config.rightTypes_merge_iff`: which types matter when one table is laid over another.
* `Config.effective_follows`: where the settings of commands come from.
* `Config.not_independent`: a section that is an array takes the settings of the other file with it.
-/

namespace BlockStore

namespace Config

open Toml

/-! ### Settings -/

/-- The settings of the commands. -/
inductive Setting where
  /-- The path of the device. -/
  | path
  /-- New volumes deduplicate. -/
  | dedup
  /-- The size of a new image file. -/
  | sizeBytes
  /-- Volumes are repaired when they are mounted. -/
  | repairOnMount
  /-- The name of the log level. -/
  | level
deriving DecidableEq

namespace Setting

/-- The section of the setting. -/
def heading : Setting → String
  | path => "device"
  | dedup => "format"
  | sizeBytes => "format"
  | repairOnMount => "mount"
  | level => "logging"

/-- The name of the setting. -/
def name : Setting → String
  | path => "path"
  | dedup => "dedup"
  | sizeBytes => "size_bytes"
  | repairOnMount => "repair_on_mount"
  | level => "level"

/-- The names of the settings of the section, in order. -/
def names : Setting → List String
  | path => ["path"]
  | dedup => ["dedup", "size_bytes"]
  | sizeBytes => ["dedup", "size_bytes"]
  | repairOnMount => ["repair_on_mount"]
  | level => ["level"]

/-- The value has the type of the setting: a text or a point in time, a truth value, or a number that is not
negative. -/
def accepts (x : Setting) (v : Value) : Bool :=
  match x with
  | path => (text? v).isSome
  | dedup => (switch? v).isSome
  | sizeBytes => (size? v).isSome
  | repairOnMount => (switch? v).isSome
  | level => (text? v).isSome

/-- What stands for the section of the setting may do so: nothing, a table, or an array without more items
than there are settings in the section. -/
def Admits (x : Setting) : Option Value → Prop
  | none => True
  | some (.table _) => True
  | some (.array items) => items.length ≤ x.names.length
  | some _ => False

end Setting

/-- The value of a setting in a table. In a section that is an array the place of an item says whose value it
is. -/
def given (t : Table) (x : Setting) : Option Value :=
  match t.get? x.heading with
  | some (.array items) => (x.names.zip items).lookup x.name
  | _ => t.at? [x.heading, x.name]

/-- The section of the setting is merged: the overlay leaves it alone, or it is a table in both. -/
def isMerged (base overlay : Table) (x : Setting) : Bool :=
  match base.get? x.heading, overlay.get? x.heading with
  | _, none => true
  | some (.table _), some (.table _) => true
  | _, _ => false

/-- The value of a setting in two tables, of which the overlay is asked first. -/
def fromFiles (base overlay : Table) (x : Setting) : Option Value :=
  given overlay x <|> if isMerged base overlay x then given base x else none

/-- All settings in a table have the right types. -/
def RightTypes (t : Table) : Prop :=
  ∀ x : Setting, x.Admits (t.get? x.heading) ∧ ∀ v, given t x = some v → x.accepts v

/-- The setting `y` is the one of the environment, or is read from the value of the files, or is the
default. -/
def Chosen {α : Type} (fromEnv : Option α) (fromFiles : Option Value) (read : Value → Option α)
    (default y : α) : Prop :=
  match fromEnv, fromFiles with
  | some a, _ => y = a
  | none, some v => read v = some y
  | none, none => y = default

/-- The settings come from the environment, from given values and from nowhere, each for itself. A switch in
the environment counts only if it stands for a truth value. -/
structure Follows (env : String → Option String) (values : Setting → Option Value) (c : Config) : Prop where
  path : Chosen ((env deviceVariable).map some) (values .path) (fun v => (text? v).map some) none c.path
  dedup : Chosen ((env dedupVariable).bind parseSwitch?) (values .dedup) switch? false c.dedup
  sizeBytes : Chosen none (values .sizeBytes) (fun v => (size? v).map some) none c.sizeBytes
  repairOnMount :
    Chosen ((env repairVariable).bind parseSwitch?) (values .repairOnMount) switch? false c.repairOnMount
  level : Chosen none (values .level) text? "warn" c.level

/-! ### Reading a table -/

variable {α : Type} {t base overlay : Table} {v : Value} {x : Setting} {c : Config}
  {env : String → Option String} {values : Setting → Option Value}

theorem setting?_eq_some_iff {entries : Table} {name : String} {read : Value → Option α} {default y : α} :
    setting? entries name read default = some y ↔ Chosen none (entries.get? name) read default y := by
  rw [setting?]
  cases entries.get? name with
  | none => exact ⟨fun h => (Option.some.inj h).symm, fun h => congrArg some h.symm⟩
  | some v => exact Iff.rfl

theorem admits_iff :
    x.Admits (t.get? x.heading) ↔ ∃ entries, sectionTable? t x.heading x.names = some entries := by
  rw [sectionTable?]
  cases t.get? x.heading with
  | none => exact iff_of_true trivial ⟨_, rfl⟩
  | some v =>
    cases v with
    | table entries => exact iff_of_true trivial ⟨_, rfl⟩
    | array items =>
      rw [Setting.Admits]
      dsimp only
      split
      case isTrue h => exact iff_of_true h ⟨_, rfl⟩
      case isFalse h => exact iff_of_false h fun ⟨_, heq⟩ => nomatch heq
    | _ => exact iff_of_false id fun ⟨_, heq⟩ => nomatch heq

/-- A section that can be read has the values that are given. -/
theorem get?_of_sectionTable {entries : Table} (h : sectionTable? t x.heading x.names = some entries) :
    entries.get? x.name = given t x := by
  rw [sectionTable?] at h
  rw [given]
  cases hget : t.get? x.heading with
  | none =>
    rw [hget] at h
    cases h
    rw [Table.at?_cons, hget]
    rfl
  | some v =>
    rw [hget] at h
    cases v with
    | table inner =>
      cases h
      rw [Table.at?_cons_of_get? hget]
      exact (Table.at?_singleton ..).symm
    | array items =>
      dsimp only at h
      split at h
      · cases h
        rfl
      · cases h
    | _ => cases h

theorem setting?_given {entries : Table} (h : sectionTable? t x.heading x.names = some entries)
    {read : Value → Option α} {default y : α} :
    setting? entries x.name read default = some y ↔ Chosen none (given t x) read default y := by
  rw [setting?_eq_some_iff, get?_of_sectionTable h]

/-- A table can be read if its sections can be and the settings in them have the right types, and the settings
that are read are these or the defaults. -/
theorem ofTable?_eq_some_iff :
    ofTable? t = some c ↔
      (∀ x : Setting, x.Admits (t.get? x.heading)) ∧ Follows (fun _ => none) (given t) c := by
  constructor
  · intro h
    obtain ⟨device, hdevice, h⟩ := Option.bind_eq_some_iff.1 h
    obtain ⟨format, hformat, h⟩ := Option.bind_eq_some_iff.1 h
    obtain ⟨mount, hmount, h⟩ := Option.bind_eq_some_iff.1 h
    obtain ⟨logging, hlogging, h⟩ := Option.bind_eq_some_iff.1 h
    obtain ⟨path, hpath, h⟩ := Option.bind_eq_some_iff.1 h
    obtain ⟨dedup, hdedup, h⟩ := Option.bind_eq_some_iff.1 h
    obtain ⟨size, hsize, h⟩ := Option.bind_eq_some_iff.1 h
    obtain ⟨repair, hrepair, h⟩ := Option.bind_eq_some_iff.1 h
    obtain ⟨level, hlevel, h⟩ := Option.bind_eq_some_iff.1 h
    cases h
    refine ⟨fun x => admits_iff.2 (by cases x <;> exact ⟨_, ‹_›⟩), ?_, ?_, ?_, ?_, ?_⟩
    · exact (setting?_given (x := .path) hdevice).1 hpath
    · exact (setting?_given (x := .dedup) hformat).1 hdedup
    · exact (setting?_given (x := .sizeBytes) hformat).1 hsize
    · exact (setting?_given (x := .repairOnMount) hmount).1 hrepair
    · exact (setting?_given (x := .level) hlogging).1 hlevel
  · rintro ⟨hadmits, hpath, hdedup, hsize, hrepair, hlevel⟩
    obtain ⟨device, hdevice⟩ := admits_iff.1 (hadmits .path)
    obtain ⟨format, hformat⟩ := admits_iff.1 (hadmits .dedup)
    obtain ⟨mount, hmount⟩ := admits_iff.1 (hadmits .repairOnMount)
    obtain ⟨logging, hlogging⟩ := admits_iff.1 (hadmits .level)
    refine Option.bind_eq_some_iff.2 ⟨device, hdevice, ?_⟩
    refine Option.bind_eq_some_iff.2 ⟨format, hformat, ?_⟩
    refine Option.bind_eq_some_iff.2 ⟨mount, hmount, ?_⟩
    refine Option.bind_eq_some_iff.2 ⟨logging, hlogging, ?_⟩
    refine Option.bind_eq_some_iff.2 ⟨c.path, (setting?_given (x := .path) hdevice).2 hpath, ?_⟩
    refine Option.bind_eq_some_iff.2 ⟨c.dedup, (setting?_given (x := .dedup) hformat).2 hdedup, ?_⟩
    refine Option.bind_eq_some_iff.2 ⟨c.sizeBytes, (setting?_given (x := .sizeBytes) hformat).2 hsize, ?_⟩
    refine Option.bind_eq_some_iff.2
      ⟨c.repairOnMount, (setting?_given (x := .repairOnMount) hmount).2 hrepair, ?_⟩
    exact Option.bind_eq_some_iff.2 ⟨c.level, (setting?_given (x := .level) hlogging).2 hlevel, rfl⟩

/-- What is chosen can be had if and only if the value has the right type. -/
theorem exists_chosen_iff {value : Option Value} {read : Value → Option α} {default : α} :
    (∃ y, Chosen none value read default y) ↔ ∀ v, value = some v → (read v).isSome := by
  cases value with
  | none => exact iff_of_true ⟨default, rfl⟩ fun _ h => nomatch h
  | some v =>
    constructor
    · rintro ⟨y, hy⟩ w hw
      cases hw
      exact Option.isSome_iff_exists.2 ⟨y, hy⟩
    · intro h
      exact Option.isSome_iff_exists.1 (h v rfl)

/-- A table can be read if and only if all settings in it have the right types. -/
theorem exists_ofTable_iff : (∃ c, ofTable? t = some c) ↔ RightTypes t := by
  constructor
  · rintro ⟨c, hc⟩ x
    obtain ⟨hadmits, hpath, hdedup, hsize, hrepair, hlevel⟩ := ofTable?_eq_some_iff.1 hc
    refine ⟨hadmits x, ?_⟩
    cases x with
    | path => simpa [Setting.accepts] using exists_chosen_iff.1 ⟨_, hpath⟩
    | dedup => exact exists_chosen_iff.1 ⟨_, hdedup⟩
    | sizeBytes => simpa [Setting.accepts] using exists_chosen_iff.1 ⟨_, hsize⟩
    | repairOnMount => exact exists_chosen_iff.1 ⟨_, hrepair⟩
    | level => exact exists_chosen_iff.1 ⟨_, hlevel⟩
  · intro h
    have hread {α : Type} (x : Setting) (read : Value → Option α) (default : α)
        (haccepts : ∀ v, x.accepts v → (read v).isSome) : ∃ y, Chosen none (given t x) read default y :=
      exists_chosen_iff.2 fun v hv => haccepts v ((h x).2 v hv)
    obtain ⟨path, hpath⟩ := hread .path (fun v => (text? v).map some) none
      fun v hv => by simpa [Setting.accepts] using hv
    obtain ⟨dedup, hdedup⟩ := hread .dedup switch? false fun v hv => hv
    obtain ⟨size, hsize⟩ := hread .sizeBytes (fun v => (size? v).map some) none
      fun v hv => by simpa [Setting.accepts] using hv
    obtain ⟨repair, hrepair⟩ := hread .repairOnMount switch? false fun v hv => hv
    obtain ⟨level, hlevel⟩ := hread .level text? "warn" fun v hv => hv
    exact ⟨⟨path, dedup, size, repair, level⟩,
      ofTable?_eq_some_iff.2 ⟨fun x => (h x).1, hpath, hdedup, hsize, hrepair, hlevel⟩⟩

/-! ### Two tables -/

theorem get?_merge_of_none (hoverlay : overlay.Proper) {key : String} (h : overlay.get? key = none) :
    (base.merge overlay).get? key = base.get? key := by
  rw [← Table.at?_singleton, ← Table.at?_singleton base]
  exact ((Table.merges_merge base overlay).overlaid hoverlay).kept (Table.spares_cons_of_get?_eq_none h [])

theorem get?_merge_of_leaf (hoverlay : overlay.Proper) {key : String} (h : overlay.get? key = some v)
    (hleaf : v.isTable = false) : (base.merge overlay).get? key = some v := by
  rw [← Table.at?_singleton] at h ⊢
  exact ((Table.merges_merge base overlay).overlaid hoverlay).leaf h hleaf

theorem get?_merge_of_table (hoverlay : overlay.Proper) {key : String} {inner : Table}
    (h : overlay.get? key = some (.table inner)) : ∃ t, (base.merge overlay).get? key = some (.table t) := by
  rw [← Table.at?_singleton] at h
  obtain ⟨t, ht⟩ := ((Table.merges_merge base overlay).overlaid hoverlay).table h
  exact ⟨t, by rwa [← Table.at?_singleton]⟩

/-- Whether the section can be read is a matter of the overlay if it has one. -/
theorem admits_merge_iff (hoverlay : overlay.Proper) :
    x.Admits ((base.merge overlay).get? x.heading) ↔
      x.Admits (overlay.get? x.heading <|> base.get? x.heading) := by
  cases h : overlay.get? x.heading with
  | none => rw [get?_merge_of_none hoverlay h]; rfl
  | some v =>
    cases v with
    | table inner =>
      obtain ⟨t, ht⟩ := get?_merge_of_table hoverlay h
      rw [ht]
      exact Iff.rfl
    | _ => rw [get?_merge_of_leaf hoverlay h rfl]; rfl

theorem given_congr {u : Table} (h : t.get? x.heading = u.get? x.heading) : given t x = given u x := by
  rw [given, given, h, Table.at?_cons_congr h]

theorem given_of_table {inner : Table} (h : t.get? x.heading = some (.table inner)) :
    given t x = t.at? [x.heading, x.name] := by
  rw [given, h]

theorem given_of_none (h : t.get? x.heading = none) : given t x = none := by
  rw [given, h, Table.at?_cons, h]
  rfl

theorem at?_of_not_table {name : String} (h : ∀ inner, t.get? x.heading ≠ some (.table inner)) :
    t.at? [x.heading, name] = none := by
  rw [Table.at?_cons]
  cases hget : t.get? x.heading with
  | none => rfl
  | some v =>
    cases v with
    | table inner => exact absurd hget (h inner)
    | _ => rfl

theorem isMerged_iff_of_table {inner : Table} (h : overlay.get? x.heading = some (.table inner)) :
    isMerged base overlay x ↔ ∃ existing, base.get? x.heading = some (.table existing) := by
  rw [isMerged, h]
  cases base.get? x.heading with
  | none => simp
  | some v => cases v <;> simp

/-- The value of a setting after one table was laid over another. Only that a table is there may be known of
it, since two tables at the place of a setting are merged, too. -/
theorem outline_given_merge (hoverlay : overlay.Proper) :
    (given (base.merge overlay) x).map Value.outline = (fromFiles base overlay x).map Value.outline := by
  cases h : overlay.get? x.heading with
  | none =>
    have hmerged : isMerged base overlay x := by rw [isMerged, h]
    rw [fromFiles, given_of_none h, if_pos hmerged, given_congr (get?_merge_of_none hoverlay h)]
    rfl
  | some v =>
    cases hleaf : v.isTable with
    | false =>
      have hmerged : ¬ isMerged base overlay x := by
        rw [isMerged, h]
        cases v with
        | table inner => cases hleaf
        | _ => simp
      rw [fromFiles, if_neg hmerged, given_congr ((get?_merge_of_leaf hoverlay h hleaf).trans h.symm)]
      cases given overlay x <;> rfl
    | true =>
      obtain ⟨inner, rfl⟩ := Value.exists_of_isTable hleaf
      obtain ⟨t, ht⟩ : ∃ t, (base.merge overlay).get? x.heading = some (.table t) :=
        get?_merge_of_table hoverlay h
      have hat := (Table.merges_merge base overlay).overlaidAt hoverlay [x.heading, x.name]
      rw [given_of_table ht, fromFiles, given_of_table h]
      by_cases hspares : overlay.Spares [x.heading, x.name]
      · rw [hat.kept hspares, hspares.1]
        by_cases hmerged : isMerged base overlay x
        · obtain ⟨existing, hbase⟩ := (isMerged_iff_of_table h).1 hmerged
          rw [if_pos hmerged, given_of_table hbase]
          rfl
        · have hnone : base.at? [x.heading, x.name] = none := at?_of_not_table fun existing hbase =>
            hmerged ((isMerged_iff_of_table h).2 ⟨existing, hbase⟩)
          rw [if_neg hmerged, hnone]
          rfl
      · rw [hat.given hspares]
        cases hinner : Table.get? inner x.name with
        | none =>
          have hinside := Table.spares_cons_of_get?_eq_none hinner []
          exact absurd ((Table.spares_cons_of_table h _).2 hinside) hspares
        | some w =>
          have hw : overlay.at? [x.heading, x.name] = some w := by
            rw [Table.at?_cons_of_get? h]
            exact (Table.at?_singleton inner x.name).trans hinner
          rw [hw]
          rfl

/-- A type is a matter of the outline. -/
theorem accepts_outline (x : Setting) (v : Value) : x.accepts v.outline = x.accepts v := by
  cases x <;> cases v <;> rfl

/-- What a reading of values makes of a value is a matter of the outline, if it makes nothing of tables. -/
theorem chosen_congr {value value' : Option Value} {read : Value → Option α} {default y : α}
    (h : value.map Value.outline = value'.map Value.outline) (hread : ∀ inner, read (.table inner) = none) :
    Chosen none value read default y ↔ Chosen none value' read default y := by
  have houtline (v : Value) : read v.outline = read v := by
    cases v with
    | table inner => exact (hread []).trans (hread inner).symm
    | _ => rfl
  cases value with
  | none =>
    cases value' with
    | none => exact Iff.rfl
    | some v' => cases h
  | some v =>
    cases value' with
    | none => cases h
    | some v' =>
      have hv : v.outline = v'.outline := Option.some.inj h
      change read v = some y ↔ read v' = some y
      rw [← houtline v, hv, houtline]

theorem Follows.congr {values' : Setting → Option Value}
    (h : ∀ x, (values x).map Value.outline = (values' x).map Value.outline)
    (hfollows : Follows (fun _ => none) values c) : Follows (fun _ => none) values' c where
  path := (chosen_congr (h .path) fun _ => rfl).1 hfollows.path
  dedup := (chosen_congr (h .dedup) fun _ => rfl).1 hfollows.dedup
  sizeBytes := (chosen_congr (h .sizeBytes) fun _ => rfl).1 hfollows.sizeBytes
  repairOnMount := (chosen_congr (h .repairOnMount) fun _ => rfl).1 hfollows.repairOnMount
  level := (chosen_congr (h .level) fun _ => rfl).1 hfollows.level

/-- Which types matter when one table is laid over another: those of what is found in the end. -/
theorem rightTypes_merge_iff (hoverlay : overlay.Proper) :
    RightTypes (base.merge overlay) ↔ ∀ x : Setting,
      x.Admits (overlay.get? x.heading <|> base.get? x.heading) ∧
        ∀ v, fromFiles base overlay x = some v → x.accepts v := by
  refine forall_congr' fun x => and_congr (admits_merge_iff hoverlay) ?_
  have houtline : (given (base.merge overlay) x).map Value.outline =
      (fromFiles base overlay x).map Value.outline := outline_given_merge hoverlay
  cases hgiven : given (base.merge overlay) x with
  | none =>
    rw [hgiven] at houtline
    rw [Option.map_eq_none_iff.1 houtline.symm]
  | some v =>
    rw [hgiven] at houtline
    obtain ⟨w, hw, hsame⟩ := Option.map_eq_some_iff.1 houtline.symm
    rw [hw]
    have haccepts : x.accepts v = x.accepts w := by rw [← accepts_outline, ← hsame, accepts_outline]
    simp [haccepts]

/-! ### The environment -/

/-- The environment is laid over what was read. -/
theorem Follows.override (h : Follows (fun _ => none) values c) (env : String → Option String) :
    Follows env values (c.override env) where
  path := by
    cases henv : env deviceVariable with
    | none => simpa [Config.override, henv] using h.path
    | some s => simp [Config.override, henv, Chosen]
  dedup := by
    cases henv : (env dedupVariable).bind parseSwitch? with
    | none => simpa [Config.override, henv] using h.dedup
    | some b => simp [Config.override, henv, Chosen]
  sizeBytes := h.sizeBytes
  repairOnMount := by
    cases henv : (env repairVariable).bind parseSwitch? with
    | none => simpa [Config.override, henv] using h.repairOnMount
    | some b => simp [Config.override, henv, Chosen]
  level := h.level

/-- The defaults come from nowhere. -/
theorem follows_default : Follows (fun _ => none) (fun _ => none) ({} : Config) :=
  ⟨rfl, rfl, rfl, rfl, rfl⟩

/-! ### Files -/

/-- The table that is found where a file may be. Where there is no file, or nobody knows where it would be,
it is the empty one. -/
inductive Holds : Found → Table → Prop where
  /-- No file is there. -/
  | absent : Holds none []
  /-- The file is a document. -/
  | document {text : String} {t : Table} (h : parse text = some t) : Holds (some (.ok text.toUTF8)) t

theorem Holds.proper {file : Found} (h : Holds file t) : t.Proper := by
  cases h with
  | absent => exact .empty
  | document h => exact proper_of_parse h

theorem readTable_eq_ok_iff {contents : Except SystemError ByteArray} :
    readTable contents = .ok t ↔ Holds (some contents) t := by
  constructor
  · intro h
    rw [readTable.eq_def] at h
    split at h
    case h_1 cause => cases h
    case h_2 bytes =>
      split at h
      case h_1 => cases h
      case h_2 text htext =>
        split at h
        case h_1 => cases h
        case h_2 t' ht' =>
          cases h
          rw [String.fromUTF8?] at htext
          split at htext
          · cases htext
            exact .document ht'
          · cases htext
  · intro h
    cases h with
    | @document text t h =>
      have htext : String.fromUTF8? text.toUTF8 = some text := dif_pos text.isValidUTF8
      rw [readTable]
      simp only [htext, h]

/-- The table that is found is laid over what is there, and then the other files are. -/
theorem mergeFiles_cons_eq_ok_iff {file : Found} {rest : List Found} :
    mergeFiles base (file :: rest) = .ok t ↔ ∃ p, Holds file p ∧ mergeFiles (base.merge p) rest = .ok t := by
  cases file with
  | none =>
    rw [mergeFiles]
    constructor
    · exact fun h => ⟨[], .absent, by rwa [Table.merge_nil]⟩
    · rintro ⟨p, hp, h⟩
      cases hp
      rwa [Table.merge_nil] at h
  | some contents =>
    rw [mergeFiles]
    cases hread : readTable contents with
    | error e =>
      refine iff_of_false (fun h => nomatch h) fun ⟨p, hp, _⟩ => ?_
      rw [readTable_eq_ok_iff.2 hp] at hread
      cases hread
    | ok p =>
      have hp : Holds (some contents) p := readTable_eq_ok_iff.1 hread
      have hmerged : (if base.isEmpty then p else base.merge p) = base.merge p := by
        cases base with
        | nil => exact (Table.merge_nil_left hp.proper).symm
        | cons _ _ => rfl
      change mergeFiles (if base.isEmpty then p else base.merge p) rest = .ok t ↔ _
      rw [hmerged]
      constructor
      · exact fun h => ⟨p, hp, h⟩
      · rintro ⟨q, hq, h⟩
        obtain rfl : p = q := Except.ok.inj (hread.symm.trans (readTable_eq_ok_iff.2 hq))
        exact h

/-- The file of the project is laid over that of the user. -/
theorem mergeFiles_eq_ok_iff {global project : Found} :
    mergeFiles [] [global, project] = .ok t ↔
      ∃ g p, Holds global g ∧ Holds project p ∧ t = g.merge p := by
  rw [mergeFiles_cons_eq_ok_iff]
  constructor
  · rintro ⟨g, hg, h⟩
    obtain ⟨p, hp, h⟩ := mergeFiles_cons_eq_ok_iff.1 h
    rw [Table.merge_nil_left hg.proper] at h
    exact ⟨g, p, hg, hp, (Except.ok.inj h).symm⟩
  · rintro ⟨g, p, hg, hp, rfl⟩
    refine ⟨g, hg, mergeFiles_cons_eq_ok_iff.2 ⟨p, hp, ?_⟩⟩
    rw [Table.merge_nil_left hg.proper]
    rfl

theorem load_eq_ok_iff {files : List Found} :
    load files = .ok c ↔ ∃ t, mergeFiles [] files = .ok t ∧ ofTable? t = some c := by
  rw [load]
  cases mergeFiles [] files with
  | error e => exact iff_of_false (fun h => nomatch h) fun ⟨_, h, _⟩ => nomatch h
  | ok t =>
    constructor
    · intro h
      refine ⟨t, rfl, ?_⟩
      cases hc : ofTable? t with
      | none => simp [hc, bind, Except.bind, throw, throwThe, MonadExceptOf.throw] at h
      | some c' =>
        simp [hc, bind, Except.bind, pure, Except.pure] at h
        rw [h]
    · rintro ⟨t', ht, hc⟩
      cases ht
      simp [hc, bind, Except.bind, pure, Except.pure]

theorem load_pair_eq_ok_iff (global project : Found) :
    load [global, project] = .ok c ↔
      ∃ g p, Holds global g ∧ Holds project p ∧ ofTable? (g.merge p) = some c := by
  rw [load_eq_ok_iff]
  constructor
  · rintro ⟨t, hmerged, hc⟩
    obtain ⟨g, p, hg, hp, rfl⟩ := mergeFiles_eq_ok_iff.1 hmerged
    exact ⟨g, p, hg, hp, hc⟩
  · rintro ⟨g, p, hg, hp, hc⟩
    exact ⟨_, mergeFiles_eq_ok_iff.2 ⟨g, p, hg, hp, rfl⟩, hc⟩

/-- Where no section is an array, a setting in two tables is the one of the overlay, or else that of the
base. -/
theorem fromFiles_of_tables (hadmits : x.Admits (overlay.get? x.heading <|> base.get? x.heading))
    (hbase : ∀ items, base.get? x.heading ≠ some (.array items))
    (hoverlay : ∀ items, overlay.get? x.heading ≠ some (.array items)) :
    fromFiles base overlay x = (overlay.at? [x.heading, x.name] <|> base.at? [x.heading, x.name]) := by
  have hgiven (t : Table) (h : ∀ items, t.get? x.heading ≠ some (.array items)) :
      given t x = t.at? [x.heading, x.name] := by
    rw [given]
    split
    · exact absurd ‹_› (h _)
    · rfl
  rw [fromFiles, hgiven base hbase, hgiven overlay hoverlay]
  split
  · rfl
  case isFalse hmerged =>
    -- The overlay has the section, and it may, so it is a table there. Then the base has none.
    have hnone : base.at? [x.heading, x.name] = none := by
      refine at?_of_not_table fun existing hexisting => ?_
      cases hget : overlay.get? x.heading with
      | none => exact hmerged (by rw [isMerged, hget])
      | some v =>
        rw [hget] at hadmits
        cases v with
        | table inner => exact hmerged ((isMerged_iff_of_table hget).2 ⟨existing, hexisting⟩)
        | array items => exact hoverlay items hget
        | _ => exact hadmits
    rw [hnone]

/-- The settings that commands work with, for all files and environments.

If both files hold tables and their settings, the project's over the user's, have the right types, then the
settings can be loaded, and each of them for itself is the one of the environment, else that of the files,
else the default. In the files it is that of the project, else that of the user; if one of them has the
section as an array, this holds of sections instead of settings. Types matter only for what is found this
way, so values of the user that are replaced may have any. Otherwise loading is an error, and the settings
come from the environment and the defaults alone. A command is carried out with these settings, read from the
files of the user and of the project. -/
theorem effective_follows (global project : Found) (env : String → Option String) :
    (∀ g p, Holds global g → Holds project p → RightTypes (g.merge p) →
      (∃ c, load [global, project] = .ok c ∧ Follows (fun _ => none) (fromFiles g p) c) ∧
      Follows env (fromFiles g p) (effective [global, project] env)) ∧
    ((¬ ∃ g p, Holds global g ∧ Holds project p ∧ RightTypes (g.merge p)) →
      (∃ e, load [global, project] = .error e) ∧
      Follows env (fun _ => none) (effective [global, project] env)) ∧
    (∀ g p, Holds global g → Holds project p →
      (RightTypes (g.merge p) ↔ ∀ x : Setting, x.Admits (p.get? x.heading <|> g.get? x.heading) ∧
        ∀ v, fromFiles g p x = some v → x.accepts v) ∧
      ∀ x : Setting, x.Admits (p.get? x.heading <|> g.get? x.heading) →
        (∀ items, g.get? x.heading ≠ some (.array items)) →
        (∀ items, p.get? x.heading ≠ some (.array items)) →
        fromFiles g p x = (p.at? [x.heading, x.name] <|> g.at? [x.heading, x.name])) ∧
    ∀ (w : Workspace) (session : Session (StateM Workspace)) (args : List String) (invocation : Invocation),
      (homeConfigPath session.home).bind w.find = global → w.find projectFile = project → session.env = env →
      Invocation.parse args = .ok invocation →
      runCommand session args w =
        match (invocation.request.run session (effective [global, project] env)
          (invocation.options.devicePath (effective [global, project] env)) : Job Unit) .empty w with
        | ((.ok (), out), u) => (⟨0, out, none⟩, u)
        | ((.error failure, out), u) => (⟨1, out, some failure.render⟩, u) := by
  refine ⟨fun g p hg hp htypes => ?_, fun hnot => ?_,
    fun g p hg hp => ⟨rightTypes_merge_iff hp.proper, ?_⟩, ?_⟩
  · obtain ⟨c, hc⟩ := exists_ofTable_iff.2 htypes
    have hload : load [global, project] = .ok c :=
      (load_pair_eq_ok_iff global project).2 ⟨g, p, hg, hp, hc⟩
    have hfollows : Follows (fun _ => none) (fromFiles g p) c :=
      (ofTable?_eq_some_iff.1 hc).2.congr fun x => outline_given_merge hp.proper
    refine ⟨⟨c, hload, hfollows⟩, ?_⟩
    rw [effective, hload]
    exact hfollows.override env
  · cases hload : load [global, project] with
    | ok c =>
      obtain ⟨g, p, hg, hp, hc⟩ := (load_pair_eq_ok_iff global project).1 hload
      exact absurd ⟨g, p, hg, hp, exists_ofTable_iff.1 ⟨c, hc⟩⟩ hnot
    | error e =>
      refine ⟨⟨e, rfl⟩, ?_⟩
      rw [effective, hload]
      exact follows_default.override env
  · exact fun x => fromFiles_of_tables
  · rintro w session args invocation rfl rfl rfl hparse
    exact runCommand_apply hparse w

/-- The user gives a word for a switch and names a device. The project replaces the word, and the environment
asks for deduplication. -/
theorem effective_follows_replaced :
    effective [some (.ok "[mount]\nrepair_on_mount = 'yes'\n[device]\npath = 'a'\n".toUTF8),
        some (.ok "[mount]\nrepair_on_mount = true\n".toUTF8)]
      (fun name => if name = dedupVariable then some "on" else none) =
        ⟨some "a", true, none, true, "warn"⟩ := by
  let user : Table :=
    [("mount", .table [("repair_on_mount", .string "yes")]), ("device", .table [("path", .string "a")])]
  let project : Table := [("mount", .table [("repair_on_mount", .boolean true)])]
  have huser : Holds (some (.ok "[mount]\nrepair_on_mount = 'yes'\n[device]\npath = 'a'\n".toUTF8)) user :=
    .document (by decide +kernel)
  have hproject : Holds (some (.ok "[mount]\nrepair_on_mount = true\n".toUTF8)) project :=
    .document (by decide +kernel)
  have hmerged : user.merge project =
      [("mount", .table [("repair_on_mount", .boolean true)]), ("device", .table [("path", .string "a")])] := by
    simp [user, project, Table.merge, Table.insert, Table.get?]
  have htypes : RightTypes (user.merge project) :=
    exists_ofTable_iff.1 ⟨⟨some "a", false, none, true, "warn"⟩, by rw [hmerged]; rfl⟩
  have hfollows := ((effective_follows (some (.ok _)) (some (.ok _))
    fun name => if name = dedupVariable then some "on" else none).1 user project huser hproject htypes).2
  generalize effective _ _ = c at hfollows ⊢
  obtain ⟨path, dedup, size, repair, level⟩ := c
  obtain ⟨hpath, hdedup, hsize, hrepair, hlevel⟩ := hfollows
  cases (show some (some "a") = some path from hpath)
  cases (show dedup = true from hdedup)
  cases (show size = none from hsize)
  cases (show some true = some repair from hrepair)
  cases (show level = "warn" from hlevel)
  rfl

/-- A section that is an array takes the settings of the other file with it: the size that the user gives does
not count, though the project gives none. -/
theorem not_independent :
    ∃ user project c, parse "[format]\nsize_bytes = 4096\n" = some user ∧
      parse "format = [true]\n" = some project ∧ RightTypes (user.merge project) ∧
      load [some (.ok "[format]\nsize_bytes = 4096\n".toUTF8), some (.ok "format = [true]\n".toUTF8)] = .ok c ∧
      user.at? ["format", "size_bytes"] = some (.integer 4096) ∧
      project.at? ["format", "size_bytes"] = none ∧ c.sizeBytes = none ∧
      ¬ Follows (fun _ => none)
        (fun x => project.at? [x.heading, x.name] <|> user.at? [x.heading, x.name]) c := by
  have huser : parse "[format]\nsize_bytes = 4096\n" =
      some [("format", .table [("size_bytes", .integer 4096)])] := by decide +kernel
  have hproject : parse "format = [true]\n" = some [("format", .array [.boolean true])] := by
    decide +kernel
  have hc : ofTable? (Table.merge [("format", .table [("size_bytes", .integer 4096)])]
      [("format", .array [.boolean true])]) = some ⟨none, true, none, false, "warn"⟩ := by
    simp [Table.merge, Table.insert]
    rfl
  refine ⟨_, _, ⟨none, true, none, false, "warn"⟩, huser, hproject, exists_ofTable_iff.1 ⟨_, hc⟩, ?_, rfl,
    rfl, rfl, fun h => ?_⟩
  · exact (load_pair_eq_ok_iff _ _).2 ⟨_, _, .document huser, .document hproject, hc⟩
  · have hsize : some (some (4096 : UInt64)) = some none := h.sizeBytes
    cases hsize

end Config

end BlockStore
