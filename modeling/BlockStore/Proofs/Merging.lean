import BlockStore.Toml.Value
import Mathlib.Data.List.Infix
import Mathlib.Data.List.Nodup
import Mathlib.Data.List.Perm.Basic

/-!
# One table over another

A table holds a value at each path of keys that leads through tables to one. Laying a table over another
is best said path by path. A value that is no table is final, both ways: where the overlay has one it is what
counts, and nothing of the base is left below it. A table of the overlay replaces nothing by itself, so what
the overlay does not speak of is kept.

The overlay is worked off entry by entry, in an order that is of no account. `Table.Merges` leaves it open,
at every level of nesting anew, and what is proved of it does not mention the order.

## Main definitions

* `Value.at?`, `Table.at?`: the value at a path of keys.
* `Table.Proper`: no table has two values for a key.
* `Table.Merges`: the overlay's entries are laid over the base in some order.
* `Table.Spares`: the overlay leaves a path to the base.
* `Table.Overlaid`: what is at which path afterwards.
* `Table.Same`: the same values at the same paths, in whatever order.

## Main results

* `Table.merges_merge`: `Table.merge` takes the entries as they come.
* `Table.Merges.overlaid`: whatever the order, the result is the one that `Table.Overlaid` says.
* `Table.merge_nil_left`, `Table.merge_self`: over nothing, and over itself, a table stays as it is.
* `Table.merge_overlays`: all of it.
-/

namespace BlockStore

/-! ### Lists of pairs -/

section Pairs

variable {β : Type} {pairs pairs' : List (String × β)} {key : String} {b : β}

theorem lookup_cons_eq_ite (pair : String × β) (pairs : List (String × β)) (key : String) :
    (pair :: pairs).lookup key = if key = pair.1 then some pair.2 else pairs.lookup key := by
  rw [List.lookup_cons]
  by_cases h : key = pair.1
  · rw [beq_iff_eq.2 h, if_pos h]
  · rw [beq_false_of_ne h, if_neg h]

theorem lookup_eq_none_iff_not_mem : pairs.lookup key = none ↔ key ∉ pairs.map Prod.fst := by
  rw [List.lookup_eq_none_iff, List.mem_map]
  constructor
  · rintro h ⟨pair, hmem, rfl⟩
    simpa using h pair hmem
  · intro h pair hmem
    exact bne_iff_ne.2 fun heq => h ⟨pair, hmem, heq.symm⟩

theorem mem_of_lookup (h : pairs.lookup key = some b) : (key, b) ∈ pairs := by
  obtain ⟨before, after, rfl, -⟩ := List.lookup_eq_some_iff.1 h
  exact List.mem_append_right _ List.mem_cons_self

/-- Where no key stands twice, every pair is found. -/
theorem lookup_of_mem (hdistinct : (pairs.map Prod.fst).Nodup) (h : (key, b) ∈ pairs) :
    pairs.lookup key = some b := by
  induction pairs with
  | nil => cases h
  | cons pair rest ih =>
    rw [List.map_cons, List.nodup_cons] at hdistinct
    rw [lookup_cons_eq_ite]
    rcases List.mem_cons.1 h with rfl | hmem
    · exact if_pos rfl
    · rw [if_neg, ih hdistinct.2 hmem]
      intro hkey
      exact hdistinct.1 (hkey ▸ List.mem_map_of_mem (f := Prod.fst) hmem)

end Pairs

namespace Toml

variable {key k : String} {v w : Value} {path : List String} {entries : List (String × Value)}

/-! ### Values at paths -/

namespace Value

/-- Values by key, and no other kind of value. -/
def isTable : Value → Bool
  | .table _ => true
  | _ => false

theorem exists_of_isTable (h : v.isTable) : ∃ t, v = .table t := by
  cases v with
  | table t => exact ⟨t, rfl⟩
  | _ => cases h

/-- The value that keys lead to, one after the other. -/
def at? : Value → List String → Option Value
  | v, [] => some v
  | .table t, key :: path => (Table.get? t key).bind fun v => v.at? path
  | _, _ :: _ => none

@[simp] theorem at?_nil (v : Value) : v.at? [] = some v := by cases v <;> rfl

/-- The value, but only that it is a table if it is one. -/
def outline : Value → Value
  | .table _ => .table []
  | v => v

theorem outline_of_leaf (h : v.isTable = false) : v.outline = v := by
  cases v with
  | table t => cases h
  | _ => rfl

end Value

namespace Table

variable {t u base overlay result existing inner merged rest : Table}

/-- The value that keys lead to, the table itself for none. -/
def at? (t : Table) (path : List String) : Option Value := (Value.table t).at? path

@[simp] theorem at?_nil (t : Table) : t.at? [] = some (.table t) := rfl

theorem at?_cons (t : Table) (key : String) (path : List String) :
    t.at? (key :: path) = (t.get? key).bind fun v => v.at? path := rfl

theorem at?_cons_of_get? (h : t.get? key = some v) (path : List String) :
    t.at? (key :: path) = v.at? path := by
  rw [at?_cons, h, Option.bind_some]

@[simp] theorem at?_singleton (t : Table) (key : String) : t.at? [key] = t.get? key := by
  rw [at?_cons]
  simp only [Value.at?_nil, Option.bind_fun_some]

theorem at?_cons_congr (h : t.get? key = u.get? key) (path : List String) :
    t.at? (key :: path) = u.at? (key :: path) := by
  rw [at?_cons, at?_cons, h]

/-- No table that keys lead to has two values for one key. -/
def Proper (t : Table) : Prop :=
  ∀ path entries, t.at? path = some (.table entries) → (entries.map Prod.fst).Nodup

/-! ### Values by key -/

theorem get?_cons (entry : String × Value) (rest : Table) (key : String) :
    get? (entry :: rest) key = if key = entry.1 then some entry.2 else rest.get? key :=
  lookup_cons_eq_ite entry rest key

theorem get?_insert (t : Table) (key : String) (v : Value) (k : String) :
    (t.insert key v).get? k = if k = key then some v else t.get? k := by
  induction t with
  | nil => exact get?_cons _ _ _
  | cons entry rest ih =>
    rw [insert, get?_cons entry]
    by_cases hkey : entry.1 = key
    · subst hkey
      rw [if_pos rfl, get?_cons]
      split <;> rfl
    · rw [if_neg hkey, get?_cons, ih]
      by_cases hk : k = entry.1
      · subst hk
        rw [if_pos rfl, if_neg hkey, if_pos rfl]
      · rw [if_neg hk, if_neg hk]

/-- A value that is there already changes nothing. -/
theorem insert_of_get? (h : t.get? key = some v) : t.insert key v = t := by
  induction t with
  | nil => cases h
  | cons entry rest ih =>
    obtain ⟨k, w⟩ := entry
    rw [get?_cons] at h
    rw [insert]
    by_cases hkey : k = key
    · rw [if_pos hkey.symm] at h
      cases h
      rw [if_pos hkey]
    · rw [if_neg (Ne.symm hkey)] at h
      rw [if_neg hkey, ih h]

/-- A new key comes last. -/
theorem insert_of_get?_eq_none (h : t.get? key = none) (v : Value) : t.insert key v = t ++ [(key, v)] := by
  induction t with
  | nil => rfl
  | cons entry rest ih =>
    rw [get?_cons] at h
    split at h
    case isTrue => cases h
    case isFalse hkey => rw [insert, if_neg (Ne.symm hkey), ih h, List.cons_append]

/-- A key that is set stands once. -/
theorem nodup_insert (h : (t.map Prod.fst).Nodup) (key : String) (v : Value) :
    ((t.insert key v).map Prod.fst).Nodup := by
  cases hget : t.get? key with
  | none =>
    rw [insert_of_get?_eq_none hget, List.map_append, List.map_singleton, List.nodup_append_comm,
      List.singleton_append, List.nodup_cons]
    exact ⟨lookup_eq_none_iff_not_mem.1 hget, h⟩
  | some w =>
    suffices hkeys : (t.insert key v).map Prod.fst = t.map Prod.fst by rwa [hkeys]
    clear h
    induction t with
    | nil => cases hget
    | cons entry rest ih =>
      rw [get?_cons] at hget
      rw [Table.insert]
      by_cases hkey : entry.1 = key
      · rw [if_pos hkey, List.map_cons, List.map_cons]
      · rw [if_neg (Ne.symm hkey)] at hget
        rw [if_neg hkey, List.map_cons, ih hget, List.map_cons]

/-! ### Proper tables -/

namespace Proper

theorem nodup (h : t.Proper) : (t.map Prod.fst).Nodup := h [] t rfl

theorem of_get? (h : t.Proper) (hget : t.get? key = some (.table inner)) : Proper inner :=
  fun path entries hpath => h (key :: path) entries ((at?_cons_of_get? hget path).trans hpath)

theorem of_nodup (hdistinct : (t.map Prod.fst).Nodup)
    (h : ∀ {key inner}, (key, Value.table inner) ∈ t → Proper inner) : t.Proper := by
  intro path entries hpath
  cases path with
  | nil =>
    cases hpath
    exact hdistinct
  | cons key path =>
    rw [at?_cons] at hpath
    obtain ⟨v, hget, hv⟩ := Option.bind_eq_some_iff.1 hpath
    cases v with
    | table inner => exact h (mem_of_lookup hget) path entries hv
    | _ => cases path <;> cases hv

/-- Without tables inside, all that matters is that no key stands twice. -/
theorem of_leaves (hdistinct : (t.map Prod.fst).Nodup) (h : ∀ entry ∈ t, entry.2.isTable = false) :
    t.Proper := of_nodup hdistinct fun hmem => nomatch h _ hmem

theorem empty : Proper [] := of_nodup List.nodup_nil fun hmem => nomatch hmem

theorem get?_of_mem (h : t.Proper) (hmem : (key, v) ∈ t) : t.get? key = some v :=
  lookup_of_mem h.nodup hmem

theorem perm (h : t.Proper) (hperm : t.Perm u) : u.Proper :=
  of_nodup ((hperm.map Prod.fst).nodup_iff.1 h.nodup) fun hmem =>
    h.of_get? (h.get?_of_mem (hperm.mem_iff.2 hmem))

/-- In which order the entries stand is of no account for what is found. -/
theorem get?_perm (h : t.Proper) (hperm : t.Perm u) (key : String) : t.get? key = u.get? key := by
  cases hu : u.get? key with
  | some v => exact h.get?_of_mem (hperm.mem_iff.2 (mem_of_lookup hu))
  | none =>
    rw [get?, lookup_eq_none_iff_not_mem] at hu ⊢
    exact fun hmem => hu ((hperm.map Prod.fst).mem_iff.1 hmem)

theorem get?_tail (h : Proper ((key, v) :: rest)) : rest.get? key = none := by
  have := h.nodup
  rw [List.map_cons, List.nodup_cons] at this
  exact lookup_eq_none_iff_not_mem.2 this.1

theorem tail (h : Proper ((key, v) :: rest)) : rest.Proper := by
  have hdistinct := h.nodup
  rw [List.map_cons, List.nodup_cons] at hdistinct
  exact of_nodup hdistinct.2 fun hmem => h.of_get? (h.get?_of_mem (List.mem_cons_of_mem _ hmem))

theorem insert (h : t.Proper) (key : String) (hv : ∀ inner, v = .table inner → Proper inner) :
    (t.insert key v).Proper := by
  refine of_nodup (nodup_insert h.nodup key v) fun {k inner} hmem => ?_
  have hget := lookup_of_mem (nodup_insert h.nodup key v) hmem
  rw [← get?, get?_insert] at hget
  split at hget
  case isTrue => exact hv inner (Option.some.inj hget)
  case isFalse => exact h.of_get? hget

end Proper

/-! ### Laying one table over another -/

/-- The entries of `overlay` are laid over `base` one by one, in any order. -/
inductive Merges : (base overlay result : Table) → Prop where
  /-- Nothing is left. -/
  | done (base : Table) : Merges base [] base
  /-- A value replaces that of its key, unless both are tables. -/
  | set {base overlay result : Table} {key : String} {v : Value} {rest : Table}
      (next : overlay.Perm ((key, v) :: rest))
      (apart : ∀ inner existing, v = .table inner → base.get? key ≠ some (.table existing))
      (later : Merges (base.insert key v) rest result) : Merges base overlay result
  /-- A table is laid over the table of its key. -/
  | within {base overlay result existing inner merged : Table} {key : String} {rest : Table}
      (next : overlay.Perm ((key, .table inner) :: rest))
      (there : base.get? key = some (.table existing)) (inside : Merges existing inner merged)
      (later : Merges (base.insert key (.table merged)) rest result) : Merges base overlay result

theorem merge_nil (base : Table) : merge base [] = base := by rw [merge]

theorem merge_cons_of_apart
    (h : ∀ inner existing, v = .table inner → base.get? key ≠ some (.table existing)) :
    merge base ((key, v) :: rest) = merge (base.insert key v) rest := by
  rw [merge.eq_def]
  dsimp only
  split
  case h_1 hget => exact absurd hget (h _ _ rfl)
  case h_2 => rfl

theorem merge_cons_of_there (h : base.get? key = some (.table existing)) :
    merge base ((key, .table inner) :: rest) =
      merge (base.insert key (.table (merge existing inner))) rest := by
  rw [merge.eq_def]
  dsimp only
  rw [h]

/-- Either a value is set or a table is laid over another. -/
theorem apart_or_there (base : Table) (key : String) (v : Value) :
    (∀ inner existing, v = .table inner → base.get? key ≠ some (.table existing)) ∨
      ∃ inner existing, v = .table inner ∧ base.get? key = some (.table existing) := by
  by_cases h : ∃ inner existing, v = .table inner ∧ base.get? key = some (.table existing)
  · exact .inr h
  · exact .inl fun inner existing hv hget => h ⟨inner, existing, hv, hget⟩

/-- `Table.merge` lays the entries over the base from the first to the last. -/
theorem merges_merge (base overlay : Table) : Merges base overlay (merge base overlay) := by
  match overlay with
  | [] =>
    rw [merge_nil]
    exact .done base
  | (key, v) :: rest =>
    rcases apart_or_there base key v with h | ⟨inner, existing, hv, h⟩
    · rw [merge_cons_of_apart h]
      exact .set (.refl _) h (merges_merge _ rest)
    · subst hv
      rw [merge_cons_of_there h]
      exact .within (.refl _) h (merges_merge existing inner) (merges_merge _ rest)
termination_by sizeOf overlay

/-! ### What is at which path -/

/-- The overlay has no value at the path, and only tables on the way to it. -/
def Spares (overlay : Table) (path : List String) : Prop :=
  overlay.at? path = none ∧
    ∀ before, before <+: path → before ≠ path → ∀ v, overlay.at? before = some v → v.isTable

/-- What is at which path of `result` when `overlay` was laid over `base`. -/
structure Overlaid (base overlay result : Table) : Prop where
  /-- A value of the overlay that is no table. -/
  leaf {path : List String} {v : Value} (h : overlay.at? path = some v) (hleaf : v.isTable = false) :
    result.at? path = some v
  /-- A table, where the overlay has one. -/
  table {path : List String} {t : Table} (h : overlay.at? path = some (.table t)) :
    ∃ t', result.at? path = some (.table t')
  /-- What the base has there, where the overlay has nothing. -/
  kept {path : List String} (h : overlay.Spares path) : result.at? path = base.at? path
  /-- Nothing, below a value of the overlay that is no table. -/
  cut {path : List String} (h : overlay.at? path = none) (hcut : ¬ overlay.Spares path) :
    result.at? path = none

theorem not_spares_nil (overlay : Table) : ¬ overlay.Spares [] := fun h => nomatch h.1

theorem spares_cons_of_get?_eq_none (h : overlay.get? key = none) (path : List String) :
    overlay.Spares (key :: path) := by
  have hnone (path : List String) : overlay.at? (key :: path) = none := by rw [at?_cons, h, Option.bind_none]
  refine ⟨hnone path, fun before hbefore _ v hv => ?_⟩
  cases before with
  | nil =>
    cases hv
    rfl
  | cons k before =>
    rw [(List.cons_prefix_cons.1 hbefore).1, hnone] at hv
    cases hv

theorem not_spares_cons_of_leaf (h : overlay.get? key = some v) (hleaf : v.isTable = false)
    (path : List String) : ¬ overlay.Spares (key :: path) := by
  rintro ⟨hnone, hway⟩
  rw [at?_cons_of_get? h] at hnone
  cases path with
  | nil => cases v <;> cases hnone
  | cons k path =>
    have hv : overlay.at? [key] = some v := (at?_singleton overlay key).trans h
    have := hway [key] (List.cons_prefix_cons.2 ⟨rfl, List.nil_prefix⟩) (by simp) v hv
    rw [hleaf] at this
    cases this

theorem spares_cons_of_table (h : overlay.get? key = some (.table inner)) (path : List String) :
    overlay.Spares (key :: path) ↔ inner.Spares path := by
  have hat (path : List String) : overlay.at? (key :: path) = inner.at? path := at?_cons_of_get? h path
  constructor
  · rintro ⟨hnone, hway⟩
    refine ⟨(hat path).symm.trans hnone, fun before hbefore hne v hv => ?_⟩
    exact hway (key :: before) (List.cons_prefix_cons.2 ⟨rfl, hbefore⟩) (fun heq => hne (List.cons.inj heq).2)
      v ((hat before).trans hv)
  · rintro ⟨hnone, hway⟩
    refine ⟨(hat path).trans hnone, fun before hbefore hne v hv => ?_⟩
    cases before with
    | nil =>
      cases hv
      rfl
    | cons k before =>
      obtain ⟨rfl, hprefix⟩ := List.cons_prefix_cons.1 hbefore
      exact hway before hprefix (fun heq => hne (by rw [heq])) v ((hat before).symm.trans hv)

/-- The overlay is asked about a path by the value of its first key alone. -/
theorem spares_cons_congr (h : overlay.get? key = u.get? key) (path : List String) :
    overlay.Spares (key :: path) ↔ u.Spares (key :: path) := by
  cases hu : u.get? key with
  | none =>
    exact iff_of_true (spares_cons_of_get?_eq_none (h.trans hu) path) (spares_cons_of_get?_eq_none hu path)
  | some v =>
    cases v with
    | table inner => rw [spares_cons_of_table (h.trans hu), spares_cons_of_table hu]
    | _ =>
      exact iff_of_false (not_spares_cons_of_leaf (h.trans hu) rfl path)
        (not_spares_cons_of_leaf hu rfl path)

/-- The cases of a path, one first key at a time. -/
structure OverlaidAt (base overlay result : Table) (path : List String) : Prop where
  given : ¬ overlay.Spares path → (result.at? path).map Value.outline = (overlay.at? path).map Value.outline
  kept : overlay.Spares path → result.at? path = base.at? path

theorem overlaid_of_at (h : ∀ path, OverlaidAt base overlay result path) : Overlaid base overlay result where
  leaf {path v} hv hleaf := by
    have := (h path).given fun hspares => by
      rw [hspares.1] at hv
      cases hv
    rw [hv, Option.map_some, Value.outline_of_leaf hleaf] at this
    obtain ⟨w, hw, hout⟩ := Option.map_eq_some_iff.1 this
    cases w with
    | table t =>
      rw [← hout] at hleaf
      cases hleaf
    | _ =>
      rw [hw, ← hout]
      rfl
  table {path t} ht := by
    have := (h path).given fun hspares => by
      rw [hspares.1] at ht
      cases ht
    rw [ht] at this
    obtain ⟨w, hw, hout⟩ := Option.map_eq_some_iff.1 this
    cases w with
    | table t' => exact ⟨t', hw⟩
    | _ => cases hout
  kept {path} hspares := (h path).kept hspares
  cut {path} hnone hcut := by
    have := (h path).given hcut
    rw [hnone] at this
    exact Option.map_eq_none_iff.1 this

namespace OverlaidAt

variable {base' overlay' : Table}

theorem nil (base overlay result : Table) : OverlaidAt base overlay result [] :=
  ⟨fun _ => rfl, fun h => absurd h (not_spares_nil _)⟩

/-- A path is settled by the values of its first key. -/
theorem congr (hoverlay : overlay.get? key = overlay'.get? key) (hbase : base.get? key = base'.get? key)
    (h : OverlaidAt base' overlay' result (key :: path)) : OverlaidAt base overlay result (key :: path) := by
  refine ⟨fun hspares => ?_, fun hspares => ?_⟩
  · rw [at?_cons_congr hoverlay]
    exact h.given fun hspares' => hspares ((spares_cons_congr hoverlay path).2 hspares')
  · rw [at?_cons_congr hbase]
    exact h.kept ((spares_cons_congr hoverlay path).1 hspares)

/-- Below a value that was set there is what it has. -/
theorem of_set (hget : overlay.get? key = some v) (hresult : result.at? (key :: path) = v.at? path)
    (apart : ∀ inner existing, v = .table inner → base.get? key ≠ some (.table existing)) :
    OverlaidAt base overlay result (key :: path) := by
  have hsame : result.at? (key :: path) = overlay.at? (key :: path) :=
    hresult.trans (at?_cons_of_get? hget path).symm
  refine ⟨fun _ => by rw [hsame], fun hspares => ?_⟩
  rw [hsame, hspares.1]
  cases v with
  | table inner =>
    cases path with
    | nil => cases (at?_cons_of_get? hget []).symm.trans hspares.1
    | cons k path =>
      cases hbase : base.get? key with
      | none => rw [at?_cons, hbase, Option.bind_none]
      | some w =>
        rw [at?_cons_of_get? hbase]
        cases w with
        | table existing => exact absurd hbase (apart inner existing rfl)
        | _ => rfl
  | _ => exact absurd hspares (not_spares_cons_of_leaf hget rfl path)

/-- Below a table that was laid over another there is what became of the two. -/
theorem of_within (hget : overlay.get? key = some (.table inner))
    (there : base.get? key = some (.table existing)) (hresult : result.at? (key :: path) = merged.at? path)
    (h : OverlaidAt existing inner merged path) : OverlaidAt base overlay result (key :: path) := by
  refine ⟨fun hspares => ?_, fun hspares => ?_⟩
  · rw [hresult, at?_cons_of_get? hget]
    exact h.given fun hspares' => hspares ((spares_cons_of_table hget path).2 hspares')
  · rw [hresult, at?_cons_of_get? there]
    exact h.kept ((spares_cons_of_table hget path).1 hspares)

end OverlaidAt

namespace Merges

/-- What is set first stays at its key, because no later entry has it. -/
theorem at?_first (hrest : rest.get? key = none)
    (later : OverlaidAt (base.insert key v) rest result (key :: path)) :
    result.at? (key :: path) = v.at? path := by
  rw [later.kept (spares_cons_of_get?_eq_none hrest path)]
  exact at?_cons_of_get? (by rw [get?_insert, if_pos rfl]) path

/-- Behind the first entry, the other keys are where they were. -/
theorem overlaidAt_of_ne (hproper : overlay.Proper) (next : overlay.Perm ((key, v) :: rest)) (hk : k ≠ key)
    (later : OverlaidAt (base.insert key w) rest result (k :: path)) :
    OverlaidAt base overlay result (k :: path) := by
  refine later.congr ?_ ?_
  · rw [hproper.get?_perm next, get?_cons, if_neg hk]
  · rw [get?_insert, if_neg hk]

/-- Path by path, by induction on the entries that are left; a path that starts with the key of the next
entry is settled by it, and every other one by the rest. -/
theorem overlaidAt (h : Merges base overlay result) (hproper : overlay.Proper) (path : List String) :
    OverlaidAt base overlay result path := by
  induction h generalizing path with
  | done base =>
    cases path with
    | nil => exact .nil ..
    | cons k path => exact ⟨fun hnot => absurd (spares_cons_of_get?_eq_none rfl path) hnot, fun _ => rfl⟩
  | @set base overlay result key v rest next apart later ih =>
    have hfirst := hproper.perm next
    cases path with
    | nil => exact .nil ..
    | cons k path =>
      by_cases hk : k = key
      · subst hk
        have hget : overlay.get? k = some v := by rw [hproper.get?_perm next, get?_cons, if_pos rfl]
        exact .of_set hget (at?_first hfirst.get?_tail (ih hfirst.tail _)) apart
      · exact overlaidAt_of_ne hproper next hk (ih hfirst.tail _)
  | @within base overlay result existing inner merged key rest next there inside later ihinside ihlater =>
    have hfirst := hproper.perm next
    cases path with
    | nil => exact .nil ..
    | cons k path =>
      by_cases hk : k = key
      · subst hk
        have hget : overlay.get? k = some (.table inner) := by
          rw [hproper.get?_perm next, get?_cons, if_pos rfl]
        exact .of_within hget there (at?_first hfirst.get?_tail (ihlater hfirst.tail _))
          (ihinside (hproper.of_get? hget) path)
      · exact overlaidAt_of_ne hproper next hk (ihlater hfirst.tail _)

theorem overlaid (h : Merges base overlay result) (hproper : overlay.Proper) :
    Overlaid base overlay result := overlaid_of_at (h.overlaidAt hproper)

theorem proper (h : Merges base overlay result) (hbase : base.Proper) (hoverlay : overlay.Proper) :
    result.Proper := by
  induction h with
  | done base => exact hbase
  | @set base overlay result key v rest next apart later ih =>
    have hfirst := hoverlay.perm next
    refine ih (hbase.insert key fun inner hv => ?_) hfirst.tail
    subst hv
    exact hfirst.of_get? (hfirst.get?_of_mem List.mem_cons_self)
  | @within base overlay result existing inner merged key rest next there inside later ihinside ihlater =>
    have hfirst := hoverlay.perm next
    have hinner : Proper inner := hfirst.of_get? (hfirst.get?_of_mem List.mem_cons_self)
    refine ihlater (hbase.insert key fun inner' hv => ?_) hfirst.tail
    cases hv
    exact ihinside (hbase.of_get? there) hinner

end Merges

/-- There is a value where the overlay has one, and where it leaves the path to the base and the base has
one; and nowhere else. -/
theorem Overlaid.isSome_iff (h : Overlaid base overlay result) (path : List String) :
    (result.at? path).isSome ↔
      (overlay.at? path).isSome ∨ overlay.Spares path ∧ (base.at? path).isSome := by
  by_cases hspares : overlay.Spares path
  · simp [h.kept hspares, hspares, hspares.1]
  · cases hv : overlay.at? path with
    | none => simp [h.cut hv hspares, hspares]
    | some v =>
      cases hleaf : v.isTable with
      | false => simp [h.leaf hv hleaf]
      | true =>
        obtain ⟨t, rfl⟩ := Value.exists_of_isTable hleaf
        obtain ⟨t', ht'⟩ := h.table hv
        simp [ht']

/-- The same values at the same paths. -/
def Same (t u : Table) : Prop := ∀ path, (t.at? path).map Value.outline = (u.at? path).map Value.outline

/-- The order is of no account. -/
theorem Merges.same (h : Merges base overlay result) (h' : Merges base overlay merged)
    (hproper : overlay.Proper) : result.Same merged := by
  intro path
  have hat := h.overlaidAt hproper path
  have hat' := h'.overlaidAt hproper path
  by_cases hspares : overlay.Spares path
  · rw [hat.kept hspares, hat'.kept hspares]
  · rw [hat.given hspares, hat'.given hspares]

/-! ### Over nothing and over itself -/

/-- Entries with new keys come behind those that are there. -/
theorem merge_of_new (hproper : overlay.Proper)
    (hnew : ∀ key, overlay.get? key ≠ none → base.get? key = none) :
    merge base overlay = base ++ overlay := by
  induction overlay generalizing base with
  | nil => rw [merge_nil, List.append_nil]
  | cons entry rest ih =>
    obtain ⟨key, v⟩ := entry
    have hbase : base.get? key = none := hnew key (by rw [get?_cons, if_pos rfl]; exact Option.some_ne_none v)
    have hapart : ∀ inner existing, v = .table inner → base.get? key ≠ some (.table existing) := by
      rw [hbase]
      exact fun _ _ _ h => nomatch h
    rw [merge_cons_of_apart hapart, ih hproper.tail, insert_of_get?_eq_none hbase, List.append_assoc,
      List.singleton_append]
    intro k hk
    have hne : k ≠ key := by
      rintro rfl
      exact hk hproper.get?_tail
    rw [get?_insert, if_neg hne]
    exact hnew k (by rwa [get?_cons, if_neg hne])

theorem merge_nil_left (hproper : t.Proper) : merge [] t = t :=
  merge_of_new hproper fun _ _ => rfl

/-- A table stays as it is when entries of its own are laid over it. -/
theorem merge_of_mem (t overlay : Table) (hproper : t.Proper)
    (hmem : ∀ {key v}, (key, v) ∈ overlay → t.get? key = some v) : merge t overlay = t := by
  match overlay with
  | [] => exact merge_nil t
  | (key, v) :: rest =>
    have hget : t.get? key = some v := hmem List.mem_cons_self
    have hrest : merge t rest = t := merge_of_mem t rest hproper fun h => hmem (List.mem_cons_of_mem _ h)
    rcases apart_or_there t key v with h | ⟨inner, existing, hv, h⟩
    · rw [merge_cons_of_apart h, insert_of_get? hget, hrest]
    · subst hv
      obtain rfl : inner = existing := by
        rw [hget] at h
        cases h
        rfl
      have hinner : Proper inner := hproper.of_get? hget
      have hself : merge inner inner = inner := merge_of_mem inner inner hinner hinner.get?_of_mem
      rw [merge_cons_of_there h, hself, insert_of_get? hget, hrest]
termination_by sizeOf overlay

theorem merge_self (hproper : t.Proper) : merge t t = t := merge_of_mem t t hproper hproper.get?_of_mem

/-- **Laying one table over another changes the paths of the overlay and no others.** Afterwards there is the
overlay's value where it has one that is no table, and a table where it has one; what the base has at a path
is kept where the overlay has no value there and only tables on the way; and nothing else is there. In which
order the entries of the overlay are taken, at every level of nesting, is of no account. Over nothing a table
stays as it is, and over itself, too. -/
theorem merge_overlays {base overlay : Table} (hbase : base.Proper) (hoverlay : overlay.Proper) :
    Merges base overlay (merge base overlay) ∧
      (∀ result, Merges base overlay result →
        Overlaid base overlay result ∧
        (∀ path, (result.at? path).isSome ↔
          (overlay.at? path).isSome ∨ overlay.Spares path ∧ (base.at? path).isSome) ∧
        result.Proper ∧ result.Same (merge base overlay)) ∧
      merge [] overlay = overlay ∧ merge overlay overlay = overlay := by
  have hmerge := merges_merge base overlay
  refine ⟨hmerge, fun result h => ?_, merge_nil_left hoverlay, merge_self hoverlay⟩
  have hoverlaid := h.overlaid hoverlay
  exact ⟨hoverlaid, hoverlaid.isSome_iff, h.proper hbase hoverlay, h.same hmerge hoverlay⟩

/-- A section over a section, and a section over a value that is none. -/
theorem merge_overlays_sections :
    ∃ base overlay : Table, base.Proper ∧ overlay.Proper ∧
      base.at? ["format", "dedup"] = some (.boolean true) ∧
      base.at? ["format", "size"] = some (.integer 4096) ∧
      base.at? ["level"] = some (.string "warn") ∧
      ∀ result, Merges base overlay result →
        result.at? ["format", "dedup"] = some (.boolean true) ∧
        result.at? ["format", "size"] = some (.integer 8192) ∧
        result.at? ["level", "cli"] = some (.string "info") := by
  have hold : Proper [("dedup", .boolean true), ("size", .integer 4096)] :=
    .of_leaves (by decide) (by simp [Value.isTable])
  have hnew : Proper [("size", .integer 8192)] := .of_leaves (by decide) (by simp [Value.isTable])
  have hlevel : Proper [("cli", .string "info")] := .of_leaves (by decide) (by simp [Value.isTable])
  have hbase : Proper [("format", .table [("dedup", .boolean true), ("size", .integer 4096)]),
      ("level", .string "warn")] := by
    refine .of_nodup (by decide) fun hmem => ?_
    simp only [List.mem_cons, Prod.mk.injEq, Value.table.injEq, reduceCtorEq, and_false, List.not_mem_nil,
      or_false] at hmem
    exact hmem.2 ▸ hold
  have hoverlay : Proper [("level", .table [("cli", .string "info")]),
      ("format", .table [("size", .integer 8192)])] := by
    refine .of_nodup (by decide) fun hmem => ?_
    simp only [List.mem_cons, Prod.mk.injEq, Value.table.injEq, List.not_mem_nil, or_false] at hmem
    rcases hmem with ⟨-, rfl⟩ | ⟨-, rfl⟩
    · exact hlevel
    · exact hnew
  refine ⟨_, _, hbase, hoverlay, rfl, rfl, rfl, fun result h => ?_⟩
  obtain ⟨hoverlaid, -⟩ := (merge_overlays hbase hoverlay).2.1 result h
  have hinside : Spares [("size", .integer 8192)] ["dedup"] := spares_cons_of_get?_eq_none rfl []
  exact ⟨hoverlaid.kept ((spares_cons_of_table rfl _).2 hinside), hoverlaid.leaf rfl rfl,
    hoverlaid.leaf rfl rfl⟩

end Table

end Toml

end BlockStore
