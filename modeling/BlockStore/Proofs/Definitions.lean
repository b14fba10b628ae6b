import BlockStore.Proofs.Merging
import BlockStore.Toml.Document

/-!
# What a document defines

A document may define nothing twice, and a reader that lets nothing be defined twice gives proper tables.
The tables are kept as drafts while the document is read. Each statement changes one table, the one at the end
of a path, so it is enough to look at what it does there: a key is added that was not there, or the draft of a
key that was there is replaced.

A value in brackets is a table of its own, read in the same way with a path of no keys to start from. Arrays
are of no concern: no path of keys leads into them.

## Main definitions

* `Value.ProperInside`: a value that is a proper table if it is a table.
* `Draft.Proper`, `Draft.Distinct`: the same for a draft, and for the entries of a table of drafts.

## Main results

* `Draft.distinct_within`: a change of one table leaves all of them in order.
* `Draft.proper_finish`: what was read of such drafts is a proper table.
* `proper_of_parse`: so is what a document defines.
-/

namespace BlockStore

namespace Toml

/-- The value is a proper table if it is a table. -/
def Value.ProperInside (v : Value) : Prop := ∀ t, v = .table t → Table.Proper t

theorem Value.properInside_of_leaf {v : Value} (h : v.isTable = false) : v.ProperInside := by
  rintro t rfl
  cases h

namespace Draft

variable {origin step : Origin} {entries inner inner' result : Entries} {key k : String} {d : Draft}
  {v : Value}

/-- The tables that keys lead to have no key twice. -/
inductive Proper : Draft → Prop where
  /-- The value is in order. -/
  | leaf {v : Value} (h : v.ProperInside) : Proper (.leaf v)
  /-- No key stands twice, and the drafts are in order. -/
  | table {origin : Origin} {entries : List (String × Draft)} (distinct : (entries.map Prod.fst).Nodup)
      (h : ∀ key d, (key, d) ∈ entries → Proper d) : Proper (.table origin entries)
  /-- No keys lead into these. -/
  | tables (elements : List (List (String × Draft))) : Proper (.tables elements)

/-- The entries of a table in order. -/
structure Distinct (entries : Entries) : Prop where
  nodup : (entries.map Prod.fst).Nodup
  proper : ∀ key d, (key, d) ∈ entries → d.Proper

theorem Proper.distinct (h : Proper (.table origin entries)) : Distinct entries := by
  cases h with
  | table distinct h => exact ⟨distinct, h⟩

theorem Distinct.table (h : Distinct entries) (origin : Origin) : Proper (.table origin entries) :=
  .table h.nodup h.proper

theorem distinct_nil : Distinct [] := ⟨List.nodup_nil, fun _ _ h => nomatch h⟩

theorem Distinct.of_lookup (h : Distinct entries) (hd : entries.lookup key = some d) : d.Proper :=
  h.proper key d (mem_of_lookup hd)

/-- A key that was not there is added. -/
theorem Distinct.cons (h : Distinct entries) (hkey : entries.lookup key = none) (hd : d.Proper) :
    Distinct ((key, d) :: entries) := by
  refine ⟨?_, fun k e hmem => ?_⟩
  · rw [List.map_cons, List.nodup_cons]
    exact ⟨lookup_eq_none_iff_not_mem.1 hkey, h.nodup⟩
  · rcases List.mem_cons.1 hmem with heq | hmem
    · cases heq
      exact hd
    · exact h.proper k e hmem

theorem map_fst_set (entries : Entries) (key : String) (d : Draft) :
    (set entries key d).map Prod.fst = entries.map Prod.fst := by
  induction entries with
  | nil => rfl
  | cons entry rest ih =>
    rw [set]
    split
    · rfl
    · rw [List.map_cons, ih, List.map_cons]

theorem mem_set {e : Draft} (h : (k, d) ∈ set entries key e) : d = e ∨ (k, d) ∈ entries := by
  induction entries with
  | nil => cases h
  | cons entry rest ih =>
    rw [set] at h
    split at h
    · rcases List.mem_cons.1 h with heq | hmem
      · cases heq
        exact .inl rfl
      · exact .inr (List.mem_cons_of_mem _ hmem)
    · rcases List.mem_cons.1 h with heq | hmem
      · exact .inr (heq ▸ List.mem_cons_self)
      · exact (ih hmem).imp_right (List.mem_cons_of_mem _)

/-- The draft of a key that was there is replaced. -/
theorem Distinct.set (h : Distinct entries) (hd : d.Proper) (key : String) :
    Distinct (Draft.set entries key d) := by
  refine ⟨by rw [map_fst_set]; exact h.nodup, fun k e hmem => ?_⟩
  rcases mem_set hmem with rfl | hmem
  · exact hd
  · exact h.proper k e hmem

/-! ### Changes -/

/-- A change of one table leaves all of them in order. -/
theorem distinct_within {change : Origin → Entries → Option Entries}
    (hchange : ∀ {origin inner inner'}, Distinct inner → change origin inner = some inner' → Distinct inner')
    {path : List String} (h : Distinct entries)
    (hresult : within step change path origin entries = some result) : Distinct result := by
  induction path generalizing origin entries result with
  | nil => exact hchange h hresult
  | cons key path ih =>
    rw [within] at hresult
    split at hresult
    case h_1 hlookup =>
      obtain ⟨inner, hinner, hpure⟩ := Option.bind_eq_some_iff.1 hresult
      cases hpure
      exact h.cons hlookup ((ih distinct_nil hinner).table step)
    case h_2 => cases hresult
    case h_3 origin' inner hlookup =>
      split at hresult
      · cases hresult
      · obtain ⟨inner', hinner, hpure⟩ := Option.bind_eq_some_iff.1 hresult
        cases hpure
        exact h.set ((ih (h.of_lookup hlookup).distinct hinner).table origin') key
    case h_4 latest before hlookup =>
      obtain ⟨latest', hlatest, hpure⟩ := Option.bind_eq_some_iff.1 hresult
      cases hpure
      exact h.set (.tables _) key
    case h_5 => cases hresult

theorem distinct_define {path : KeyPath} (h : Distinct entries) (hv : v.ProperInside)
    (hresult : define path v entries = some result) : Distinct result := by
  refine distinct_within (fun {origin inner inner'} hinner hchange => ?_) h hresult
  split at hchange
  · cases hchange
  · split at hchange
    · cases hchange
    case isFalse hnot =>
      cases hchange
      exact hinner.cons (Option.not_isSome_iff_eq_none.1 hnot) (.leaf hv)

theorem distinct_openTable {path : KeyPath} (h : Distinct entries)
    (hresult : openTable path entries = some result) : Distinct result := by
  refine distinct_within (fun {origin inner inner'} hinner hchange => ?_) h hresult
  split at hchange
  case h_1 hlookup =>
    cases hchange
    exact hinner.cons hlookup (distinct_nil.table .header)
  case h_2 rows hlookup =>
    cases hchange
    have hrest : Distinct (inner.filter (·.1 ≠ path.last)) :=
      ⟨(List.filter_sublist.map Prod.fst).nodup hinner.nodup,
        fun k d hmem => hinner.proper k d (List.mem_of_mem_filter hmem)⟩
    refine hrest.cons ?_ ((hinner.of_lookup hlookup).distinct.table .header)
    rw [lookup_eq_none_iff_not_mem, List.mem_map]
    rintro ⟨pair, hmem, hkey⟩
    exact of_decide_eq_true (List.mem_filter.1 hmem).2 hkey
  case h_3 => cases hchange

theorem distinct_openElement {path : KeyPath} (h : Distinct entries)
    (hresult : openElement path entries = some result) : Distinct result := by
  refine distinct_within (fun {origin inner inner'} hinner hchange => ?_) h hresult
  split at hchange
  case h_1 hlookup =>
    cases hchange
    exact hinner.cons hlookup (.tables _)
  case h_2 =>
    cases hchange
    exact hinner.set (.tables _) path.last
  case h_3 => cases hchange

theorem distinct_defineIn {at' : List String} {path : KeyPath} (h : Distinct entries) (hv : v.ProperInside)
    (hresult : defineIn at' path v entries = some result) : Distinct result :=
  distinct_within (fun hinner hchange => distinct_define hinner hv hchange) h hresult

/-! ### What was read -/

theorem finishOnto_eq (entries : Entries) (later : Table) :
    finishOnto entries later = (entries.map fun pair => (pair.1, pair.2.toValue)).reverse ++ later := by
  induction entries generalizing later with
  | nil => rfl
  | cons entry rest ih =>
    obtain ⟨key, d⟩ := entry
    rw [finishOnto, ih, List.map_cons, List.reverse_cons, List.append_assoc, List.singleton_append]

theorem finish_eq (entries : Entries) :
    finish entries = (entries.map fun pair => (pair.1, pair.2.toValue)).reverse := by
  rw [finish, finishOnto_eq, List.append_nil]

/-- The drafts of a table are in order one by one, so the table that was read of them is a proper one. -/
theorem Distinct.proper_finish (h : Distinct entries)
    (hvalues : ∀ key d, (key, d) ∈ entries → d.toValue.ProperInside) : Table.Proper (finish entries) := by
  refine .of_nodup ?_ fun {key t} hmem => ?_
  · rw [finish_eq, List.map_reverse, List.nodup_reverse, List.map_map]
    exact h.nodup
  · rw [finish_eq, List.mem_reverse, List.mem_map] at hmem
    obtain ⟨⟨k, d⟩, hpair, heq⟩ := hmem
    exact hvalues k d hpair t (Prod.mk.inj heq).2

theorem Proper.toValue (h : d.Proper) : d.toValue.ProperInside := by
  induction h with
  | leaf h => exact h
  | table distinct h ih =>
    intro t ht
    rw [Draft.toValue] at ht
    cases ht
    exact Distinct.proper_finish ⟨distinct, h⟩ ih
  | tables elements => exact Value.properInside_of_leaf (by rw [Draft.toValue]; rfl)

theorem proper_finish (h : Distinct entries) : Table.Proper (finish entries) :=
  h.proper_finish fun key d hmem => (h.proper key d hmem).toValue

end Draft

/-! ### Reading -/

variable {item : Reader Value} {s r : List Char} {v w : Value} {entries result : Draft.Entries} {t u : Table}

theorem isTable_of_readScalar (h : readScalar s = some (v, r)) : v.isTable = false := by
  simp only [readScalar, Option.orElse_eq_orElse, Option.orElse_eq_or, Option.or_eq_some_iff,
    Option.map_eq_some_iff, Prod.mk.injEq] at h
  rcases h with ⟨_, _, rfl, _⟩ |
    ⟨_, ⟨_, _, rfl, _⟩ | ⟨_, ⟨_, _, rfl, _⟩ | ⟨_, ⟨_, _, rfl, _⟩ | ⟨_, _, _, rfl, _⟩⟩⟩⟩
    <;> rfl

/-- The value of a pair was read on its own. -/
theorem exists_of_readPair {key : KeyPath} (h : readPair item s = some ((key, v), r)) :
    ∃ s', item s' = some (v, r) := by
  obtain ⟨⟨_, s₁⟩, -, h⟩ := Option.bind_eq_some_iff.1 h
  obtain ⟨s₂, -, h⟩ := Option.bind_eq_some_iff.1 h
  obtain ⟨⟨_, s₃⟩, hitem, h⟩ := Option.bind_eq_some_iff.1 h
  cases h
  exact ⟨_, hitem⟩

theorem distinct_of_readPairs (hitem : ∀ {s v r}, item s = some (v, r) → v.ProperInside)
    {turns : List Char} (h : Draft.Distinct entries)
    (hread : readPairs item turns entries s = some (result, r)) : Draft.Distinct result := by
  induction turns generalizing entries s with
  | nil => cases hread
  | cons _ turns ih =>
    rw [readPairs] at hread
    obtain ⟨⟨⟨key, v⟩, s'⟩, hpair, hread⟩ := Option.bind_eq_some_iff.1 hread
    obtain ⟨next, hnext, hread⟩ := Option.bind_eq_some_iff.1 hread
    obtain ⟨_, hv⟩ := exists_of_readPair hpair
    have hdistinct := Draft.distinct_define h (hitem hv) hnext
    split at hread
    case h_1 => exact ih hdistinct hread
    case h_2 =>
      cases hread
      exact hdistinct
    case h_3 => cases hread

/-- What is written in brackets is read one level deeper; everything else is no table. -/
theorem properInside_of_readNested {room : Nat} (h : readNested room s = some (v, r)) : v.ProperInside := by
  induction room using Nat.strongRecOn generalizing s v r with
  | ind room ih =>
    rw [readNested.eq_def] at h
    dsimp only at h
    split at h
    case h_1 =>
      split at h
      · cases h
      · obtain ⟨⟨items, _⟩, -, heq⟩ := Option.map_eq_some_iff.1 h
        cases heq
        exact Value.properInside_of_leaf rfl
    case h_2 =>
      split at h
      · cases h
      case h_2 room =>
        rintro t rfl
        split at h
        · cases h
          exact Draft.proper_finish Draft.distinct_nil
        · obtain ⟨⟨entries, _⟩, hread, heq⟩ := Option.map_eq_some_iff.1 h
          cases heq
          exact Draft.proper_finish
            (distinct_of_readPairs (ih room (Nat.lt_succ_self _)) Draft.distinct_nil hread)
    case h_3 =>
      split at h
      · obtain ⟨⟨text, _⟩, -, heq⟩ := Option.map_eq_some_iff.1 h
        cases heq
        exact Value.properInside_of_leaf rfl
      · exact Value.properInside_of_leaf (isTable_of_readScalar h)
    case h_4 => cases h

/-- A value that a statement gives is in order. -/
def Statement.Proper : Statement → Prop
  | .pair _ v => v.ProperInside
  | _ => True

theorem proper_of_readStatement {statement : Statement} (h : readStatement s = some (statement, r)) :
    statement.Proper := by
  rw [readStatement.eq_def] at h
  split at h
  case h_1 =>
    obtain ⟨_, -, h⟩ := Option.bind_eq_some_iff.1 h
    obtain ⟨_, -, h⟩ := Option.bind_eq_some_iff.1 h
    cases h
    trivial
  case h_2 =>
    obtain ⟨_, -, h⟩ := Option.bind_eq_some_iff.1 h
    obtain ⟨_, -, h⟩ := Option.bind_eq_some_iff.1 h
    cases h
    trivial
  case h_3 =>
    obtain ⟨⟨⟨key, v⟩, _⟩, hpair, heq⟩ := Option.map_eq_some_iff.1 h
    cases heq
    obtain ⟨_, hv⟩ := exists_of_readPair hpair
    exact properInside_of_readNested hv

theorem proper_of_readStatements {n : Nat} {statements : List Statement}
    (h : readStatements n s = some statements) : ∀ statement ∈ statements, statement.Proper := by
  induction n generalizing s statements with
  | zero => cases h
  | succ n ih =>
    rw [readStatements] at h
    split at h
    case h_1 =>
      cases h
      exact fun _ hmem => nomatch hmem
    case h_2 => exact ih h
    case h_3 =>
      obtain ⟨⟨statement, _⟩, hstatement, h⟩ := Option.bind_eq_some_iff.1 h
      obtain ⟨_, -, h⟩ := Option.bind_eq_some_iff.1 h
      obtain ⟨rest, hrest, h⟩ := Option.bind_eq_some_iff.1 h
      cases h
      intro other hmem
      rcases List.mem_cons.1 hmem with rfl | hmem
      · exact proper_of_readStatement hstatement
      · exact ih hrest other hmem

/-- One statement after the other, each of which leaves all tables in order. -/
theorem distinct_build {statements : List Statement} {path : List String} (h : Draft.Distinct entries)
    (hstatements : ∀ statement ∈ statements, statement.Proper)
    (hbuild : build path entries statements = some result) : Draft.Distinct result := by
  induction statements generalizing path entries with
  | nil =>
    cases hbuild
    exact h
  | cons statement rest ih =>
    have hrest : ∀ other ∈ rest, other.Proper :=
      fun other hmem => hstatements other (List.mem_cons_of_mem _ hmem)
    cases statement with
    | table key =>
      obtain ⟨next, hnext, hbuild⟩ := Option.bind_eq_some_iff.1 hbuild
      exact ih (Draft.distinct_openTable h hnext) hrest hbuild
    | element key =>
      obtain ⟨next, hnext, hbuild⟩ := Option.bind_eq_some_iff.1 hbuild
      exact ih (Draft.distinct_openElement h hnext) hrest hbuild
    | pair key v =>
      obtain ⟨next, hnext, hbuild⟩ := Option.bind_eq_some_iff.1 hbuild
      have hv : v.ProperInside := hstatements (.pair key v) List.mem_cons_self
      exact ih (Draft.distinct_defineIn h hv hnext) hrest hbuild

/-! ### Points in time -/

/-- The keys stay. -/
theorem map_fst_of_untagEntries (h : untagEntries? t = some u) : u.map Prod.fst = t.map Prod.fst := by
  induction t generalizing u with
  | nil =>
    rw [untagEntries?] at h
    cases h
    rfl
  | cons entry rest ih =>
    obtain ⟨key, v⟩ := entry
    rw [untagEntries?] at h
    obtain ⟨w, -, h⟩ := Option.bind_eq_some_iff.1 h
    obtain ⟨u', hu', h⟩ := Option.bind_eq_some_iff.1 h
    cases h
    rw [List.map_cons, ih hu', List.map_cons]

theorem exists_mem_of_untagEntries {key : String} (h : untagEntries? t = some u) (hmem : (key, w) ∈ u) :
    ∃ v, (key, v) ∈ t ∧ v.untag? = some w := by
  induction t generalizing u with
  | nil =>
    rw [untagEntries?] at h
    cases h
    cases hmem
  | cons entry rest ih =>
    obtain ⟨k, v⟩ := entry
    rw [untagEntries?] at h
    obtain ⟨v', hv', h⟩ := Option.bind_eq_some_iff.1 h
    obtain ⟨u', hu', h⟩ := Option.bind_eq_some_iff.1 h
    cases h
    rcases List.mem_cons.1 hmem with heq | hmem
    · cases heq
      exact ⟨v, List.mem_cons_self, hv'⟩
    · obtain ⟨v'', hin, hv''⟩ := ih hu' hmem
      exact ⟨v'', List.mem_cons_of_mem _ hin, hv''⟩

/-- A table that is left comes from a table, entry by entry. -/
theorem exists_of_untag (h : v.untag? = some (.table u)) : ∃ t, v = .table t ∧ untagEntries? t = some u := by
  rw [Value.untag?.eq_def] at h
  split at h
  case h_1 =>
    obtain ⟨_, -, heq⟩ := Option.map_eq_some_iff.1 h
    cases heq
  case h_2 key w rest =>
    split at h
    case isTrue =>
      rw [taggedTime.eq_def] at h
      split at h
      · obtain ⟨_, -, heq⟩ := Option.map_eq_some_iff.1 h
        cases heq
      · cases h
    case isFalse =>
      obtain ⟨w', hw', h⟩ := Option.bind_eq_some_iff.1 h
      obtain ⟨rest', hrest', h⟩ := Option.bind_eq_some_iff.1 h
      cases h
      refine ⟨_, rfl, ?_⟩
      rw [untagEntries?, hw', hrest']
      rfl
  case h_3 hnot =>
    cases h
    cases u with
    | nil =>
      refine ⟨[], rfl, ?_⟩
      rw [untagEntries?]
    | cons entry rest => exact absurd rfl (hnot entry.1 entry.2 rest)

/-- By induction on the nesting: the keys of a table stay, and so do those of the tables in it. -/
theorem proper_of_untagEntries (t : Table) {u : Table} (ht : t.Proper) (h : untagEntries? t = some u) :
    u.Proper := by
  refine .of_nodup (by rw [map_fst_of_untagEntries h]; exact ht.nodup) fun {key inner'} hmem => ?_
  obtain ⟨v, hin, hv⟩ := exists_mem_of_untagEntries h hmem
  obtain ⟨inner, rfl, hinner⟩ := exists_of_untag hv
  exact proper_of_untagEntries inner (ht.of_get? (ht.get?_of_mem hin)) hinner
termination_by sizeOf t
decreasing_by
  have hlt := List.sizeOf_lt_of_mem hin
  simp only [Prod.mk.sizeOf_spec, Value.table.sizeOf_spec] at hlt
  omega

/-- A document defines nothing twice. -/
theorem proper_of_parse {text : String} (h : parse text = some t) : t.Proper := by
  obtain ⟨statements, hstatements, h⟩ := Option.bind_eq_some_iff.1 h
  obtain ⟨entries, hentries, h⟩ := Option.bind_eq_some_iff.1 h
  have hdistinct := distinct_build Draft.distinct_nil (proper_of_readStatements hstatements) hentries
  exact proper_of_untagEntries _ (Draft.proper_finish hdistinct) h

end Toml

end BlockStore
