/-!
# Finite maps from names

A `NameMap` binds finitely many names to values. It lists its entries in strictly increasing order
of name, by code point, so two maps that bind the same names to the same values are equal. Bindings
of placeholders and rows of tables are such maps.

## Main results

* `get?_insert`: inserting changes the value of one name.
* `ext_get?`: a map is determined by the values of its names.
* `get?_ofList`, `get?_extend`: what the map of a list and a merged map bind.
* `get?_ofList_rename`: renaming does not change the values.
* `get?_ofList_eq_lookup`, `mergeSort_of_perm_entries`: neither the order of insertion nor the order in
  which entries are listed is left in a map.
-/

namespace ScopedSql

/-- **A finite map from names**: the entries in strictly increasing order of name. -/
structure NameMap (α : Type) where
  /-- The entries. -/
  entries : List (String × α)
  /-- Names increase strictly. -/
  sorted : entries.Pairwise fun a b => a.1 < b.1

namespace NameMap

variable {α : Type}

instance [DecidableEq α] : DecidableEq (NameMap α) := fun a b =>
  if h : a.entries = b.entries then
    isTrue (by cases a; cases b; subst h; rfl)
  else
    isFalse fun e => h (congrArg entries e)

/-- The map that binds no name. -/
def empty : NameMap α := ⟨[], List.Pairwise.nil⟩

instance : Inhabited (NameMap α) := ⟨empty⟩

/-- Binds a name in a list of entries: in its place if it is new, else in place of the old value. -/
def insertEntry (name : String) (value : α) : List (String × α) → List (String × α)
  | [] => [(name, value)]
  | (k, v) :: rest =>
      if name < k then (name, value) :: (k, v) :: rest
      else if k < name then (k, v) :: insertEntry name value rest
      else (name, value) :: rest

/-- Every entry after an insertion is the new one or was there before. -/
theorem mem_insertEntry {name : String} {value : α} {entries : List (String × α)}
    {e : String × α} (h : e ∈ insertEntry name value entries) :
    e = (name, value) ∨ e ∈ entries := by
  induction entries with
  | nil => simpa [insertEntry] using h
  | cons kv rest ih =>
      obtain ⟨k, v⟩ := kv
      simp only [insertEntry] at h
      split at h
      · simpa using h
      · split at h
        · rcases List.mem_cons.1 h with rfl | h
          · simp
          · rcases ih h with rfl | h <;> simp_all
        · rcases List.mem_cons.1 h with rfl | h <;> simp_all

/-- Names that are neither below nor above one another are equal. -/
theorem eq_of_not_lt {a b : String} (hab : ¬ a < b) (hba : ¬ b < a) : a = b :=
  String.le_antisymm (String.not_lt.1 hba) (String.not_lt.1 hab)

/-- Inserting keeps the order of names. -/
theorem sorted_insertEntry (name : String) (value : α) {entries : List (String × α)}
    (h : entries.Pairwise fun a b => a.1 < b.1) :
    (insertEntry name value entries).Pairwise fun a b => a.1 < b.1 := by
  induction entries with
  | nil => simp [insertEntry]
  | cons kv rest ih =>
      obtain ⟨k, v⟩ := kv
      obtain ⟨hk, hrest⟩ := List.pairwise_cons.1 h
      simp only [insertEntry]
      split
      · rename_i hlt
        refine List.pairwise_cons.2 ⟨?_, h⟩
        intro e he
        rcases List.mem_cons.1 he with rfl | he
        · exact hlt
        · exact String.lt_trans hlt (hk e he)
      · split
        · rename_i hlt
          refine List.pairwise_cons.2 ⟨?_, ih hrest⟩
          intro e he
          rcases mem_insertEntry he with rfl | he
          · exact hlt
          · exact hk e he
        · rename_i hnk hkn
          obtain rfl := eq_of_not_lt hnk hkn
          exact List.pairwise_cons.2 ⟨hk, hrest⟩

/-- **Binds a name**, in place of the value it had. -/
def insert (m : NameMap α) (name : String) (value : α) : NameMap α :=
  ⟨insertEntry name value m.entries, sorted_insertEntry name value m.sorted⟩

/-- The value of a name. -/
def get? (m : NameMap α) (name : String) : Option α :=
  m.entries.lookup name

/-- **Merges two maps**: where both bind a name, the second one counts. -/
def extend (m other : NameMap α) : NameMap α :=
  other.entries.foldl (fun m e => m.insert e.1 e.2) m

/-- The map of a list of bindings, of which later ones count. -/
def ofList (bindings : List (String × α)) : NameMap α :=
  bindings.foldl (fun m e => m.insert e.1 e.2) empty

/-- The number of names. -/
def size (m : NameMap α) : Nat :=
  m.entries.length

/-- Whether no name is bound. -/
def isEmpty (m : NameMap α) : Bool :=
  m.entries.isEmpty

/-- The names in increasing order. -/
def names (m : NameMap α) : List String :=
  m.entries.map Prod.fst

/-! ### Laws -/

/-- Inserting an entry changes what one name is bound to. -/
theorem lookup_insertEntry (name other : String) (value : α) {entries : List (String × α)}
    (h : entries.Pairwise fun a b => a.1 < b.1) :
    (insertEntry name value entries).lookup other =
      if other = name then some value else entries.lookup other := by
  induction entries with
  | nil =>
      by_cases ho : other = name
      · simp [insertEntry, ho]
      · have hbeq : (other == name) = false := by simpa using ho
        simp [insertEntry, List.lookup_cons, hbeq, ho]
  | cons kv rest ih =>
      obtain ⟨k, v⟩ := kv
      obtain ⟨hk, hrest⟩ := List.pairwise_cons.1 h
      simp only [insertEntry]
      split
      · by_cases ho : other = name
        · simp [ho]
        · have hbeq : (other == name) = false := by simpa using ho
          simp [List.lookup_cons, hbeq, ho]
      · split
        · rename_i hlt
          have hne : k ≠ name := fun e => String.lt_irrefl _ (e ▸ hlt)
          by_cases hok : other = k
          · subst hok
            simp [hne]
          · have hbeq : (other == k) = false := by simpa using hok
            simp [List.lookup_cons, hbeq, ih hrest]
        · rename_i hnk hkn
          obtain rfl := eq_of_not_lt hnk hkn
          by_cases ho : other = name
          · simp [ho]
          · have hbeq : (other == name) = false := by simpa using ho
            simp [List.lookup_cons, hbeq, ho]

/-- **Inserting changes one name.** -/
theorem get?_insert (m : NameMap α) (name other : String) (value : α) :
    (m.insert name value).get? other = if other = name then some value else m.get? other :=
  lookup_insertEntry name other value m.sorted

/-- The empty map binds no name. -/
@[simp] theorem get?_empty (name : String) : (empty : NameMap α).get? name = none := rfl

/-- A name below all entries is bound by none. -/
theorem lookup_eq_none_of_lt {name : String} {entries : List (String × α)}
    (h : ∀ e ∈ entries, name < e.1) : entries.lookup name = none := by
  induction entries with
  | nil => rfl
  | cons e rest ih =>
      have hne : (name == e.1) = false := by
        have := h e (by simp)
        simpa using fun he : name = e.1 => String.lt_irrefl _ (he ▸ this)
      rw [List.lookup_cons, hne]
      exact ih fun e he => h e (by simp [he])

/-- Sorted entries are determined by what they bind each name to: the least name is the same on
both sides, and so is the rest. -/
theorem entries_eq_of_lookup {a b : List (String × α)}
    (ha : a.Pairwise fun x y => x.1 < y.1) (hb : b.Pairwise fun x y => x.1 < y.1)
    (h : ∀ name, a.lookup name = b.lookup name) : a = b := by
  induction a generalizing b with
  | nil =>
      cases b with
      | nil => rfl
      | cons e rest =>
          have := h e.1
          rw [List.lookup_cons] at this
          simp at this
  | cons x as ih =>
      cases b with
      | nil =>
          have := h x.1
          rw [List.lookup_cons] at this
          simp at this
      | cons y bs =>
          obtain ⟨hx, has⟩ := List.pairwise_cons.1 ha
          obtain ⟨hy, hbs⟩ := List.pairwise_cons.1 hb
          have hnone : ∀ {n : String} {e : String × α} {rest : List (String × α)},
              n < e.1 → (∀ f ∈ rest, e.1 < f.1) → (e :: rest).lookup n = none := by
            intro n e rest hn hr
            refine lookup_eq_none_of_lt ?_
            intro f hf
            rcases List.mem_cons.1 hf with rfl | hf
            · exact hn
            · exact String.lt_trans hn (hr f hf)
          have hkey : x.1 = y.1 := by
            refine eq_of_not_lt ?_ ?_
            · intro hlt
              have := h x.1
              rw [hnone hlt hy, List.lookup_cons] at this
              simp at this
            · intro hlt
              have := h y.1
              rw [hnone hlt hx, List.lookup_cons] at this
              simp at this
          have hval : x.2 = y.2 := by
            have hx1 := h x.1
            rw [List.lookup_cons, List.lookup_cons, hkey] at hx1
            simpa using hx1
          have hxy : x = y := Prod.ext hkey hval
          subst hxy
          congr 1
          refine ih has hbs fun name => ?_
          by_cases hn : name = x.1
          · subst hn
            rw [lookup_eq_none_of_lt hx, lookup_eq_none_of_lt hy]
          · have hbeq : (name == x.1) = false := by simpa using hn
            have := h name
            rwa [List.lookup_cons, List.lookup_cons, hbeq] at this

/-- **A map is its values**: maps that give every name the same value are equal. -/
theorem ext_get? {a b : NameMap α} (h : ∀ name, a.get? name = b.get? name) : a = b := by
  obtain ⟨as, ha⟩ := a
  obtain ⟨bs, hb⟩ := b
  obtain rfl := entries_eq_of_lookup ha hb h
  rfl

/-- No name is bound twice. -/
theorem nodup_names (m : NameMap α) : m.names.Nodup := by
  refine List.pairwise_map.mpr (m.sorted.imp fun hlt heq => ?_)
  exact String.lt_irrefl _ (heq ▸ hlt)

/-- Among bindings of different names, looking a name up finds the one with this name. -/
theorem lookup_eq_some_iff_mem {bindings : List (String × α)}
    (h : (bindings.map Prod.fst).Nodup) {name : String} {value : α} :
    bindings.lookup name = some value ↔ (name, value) ∈ bindings := by
  induction bindings with
  | nil => simp
  | cons e rest ih =>
      obtain ⟨k, v⟩ := e
      obtain ⟨hk, hrest⟩ := List.nodup_cons.mp h
      rw [List.lookup_cons, List.mem_cons, Prod.mk.injEq]
      by_cases hname : name = k
      · subst hname
        have hno : (name, value) ∉ rest := fun hin => hk (List.mem_map.mpr ⟨_, hin, rfl⟩)
        simp [hno, eq_comm]
      · have hbeq : (name == k) = false := by simpa using hname
        simp [hname, hbeq, ih hrest]

/-- The entries of a map are what it binds names to. -/
theorem mem_entries_iff {m : NameMap α} {name : String} {value : α} :
    (name, value) ∈ m.entries ↔ m.get? name = some value :=
  (lookup_eq_some_iff_mem m.nodup_names).symm

/-- **Inserting bindings of different names**: what they bind counts, and the map for all others. -/
theorem get?_foldl_insert (m : NameMap α) {bindings : List (String × α)}
    (h : (bindings.map Prod.fst).Nodup) (name : String) :
    (bindings.foldl (fun m e => m.insert e.1 e.2) m).get? name =
      (bindings.lookup name).or (m.get? name) := by
  induction bindings generalizing m with
  | nil => rfl
  | cons e rest ih =>
      obtain ⟨k, v⟩ := e
      obtain ⟨hk, hrest⟩ := List.nodup_cons.mp h
      rw [List.foldl_cons, ih _ hrest, get?_insert, List.lookup_cons]
      by_cases hname : name = k
      · subst hname
        have hno : rest.lookup name = none := by
          refine List.lookup_eq_none_iff.mpr fun e he => ?_
          simpa using fun heq : name = e.1 => hk (List.mem_map.mpr ⟨e, he, heq.symm⟩)
        simp [hno]
      · have hbeq : (name == k) = false := by simpa using hname
        simp [hname, hbeq]

/-- **A merged map** binds what the second map binds, and else what the first one does. -/
theorem get?_extend (m other : NameMap α) (name : String) :
    (m.extend other).get? name = (other.get? name).or (m.get? name) :=
  get?_foldl_insert m other.nodup_names name

/-- **A list of bindings of different names** is the map that binds these names. -/
theorem get?_ofList {bindings : List (String × α)} (h : (bindings.map Prod.fst).Nodup)
    (name : String) : (ofList bindings).get? name = bindings.lookup name := by
  rw [ofList, get?_foldl_insert empty h, get?_empty, Option.or_none]

/-- A name is bound exactly if it has a value. -/
theorem mem_names_iff {m : NameMap α} {name : String} :
    name ∈ m.names ↔ ∃ value, m.get? name = some value := by
  simp [names, ← mem_entries_iff]

/-- The map of a list of bindings has their names. -/
theorem names_ofList_perm {bindings : List (String × α)} (h : (bindings.map Prod.fst).Nodup) :
    (ofList bindings).names.Perm (bindings.map Prod.fst) := by
  refine (List.perm_ext_iff_of_nodup (nodup_names _) h).mpr fun name => ?_
  simp [mem_names_iff, get?_ofList h, lookup_eq_some_iff_mem h]

/-- A map is the map of its entries. -/
theorem ofList_entries (m : NameMap α) : ofList m.entries = m :=
  ext_get? fun name => get?_ofList m.nodup_names name

/-- A map without entries is the empty map. -/
theorem eq_empty_of_isEmpty {m : NameMap α} (h : m.isEmpty) : m = empty := by
  obtain ⟨entries, sorted⟩ := m
  obtain rfl : entries = [] := List.isEmpty_iff.mp h
  rfl

/-- A map with entries has names. -/
theorem names_ne_nil {m : NameMap α} (h : m.isEmpty = false) : m.names ≠ [] := by
  rw [isEmpty, List.isEmpty_eq_false_iff] at h
  exact fun hnames => h (List.map_eq_nil_iff.mp hnames)

/-- Renaming keeps the names apart. -/
theorem nodup_rename {f : String → String} (hf : Function.Injective f) (m : NameMap α) :
    ((m.entries.map fun e => (f e.1, e.2)).map Prod.fst).Nodup := by
  rw [List.map_map]
  refine List.pairwise_map.mpr ((List.pairwise_map.mp m.nodup_names).imp fun hne heq => ?_)
  exact hne (hf heq)

/-- What a renamed map binds: the new names, and nothing else. -/
theorem get?_rename_eq_some_iff {f : String → String} (hf : Function.Injective f) {m : NameMap α}
    {name : String} {value : α} :
    (ofList (m.entries.map fun e => (f e.1, e.2))).get? name = some value ↔
      ∃ k, name = f k ∧ m.get? k = some value := by
  have hnodup := nodup_rename hf m
  rw [get?_ofList hnodup, lookup_eq_some_iff_mem hnodup]
  constructor
  · intro h
    obtain ⟨⟨k, v⟩, hin, heq⟩ := List.mem_map.mp h
    obtain ⟨rfl, rfl⟩ := Prod.mk.inj heq
    exact ⟨k, rfl, mem_entries_iff.mp hin⟩
  · rintro ⟨k, rfl, hk⟩
    exact List.mem_map.mpr ⟨(k, value), mem_entries_iff.mpr hk, rfl⟩

/-- **Renaming**: a new name is bound to what the old one was bound to. -/
theorem get?_ofList_rename {f : String → String} (hf : Function.Injective f) (m : NameMap α)
    (name : String) : (ofList (m.entries.map fun e => (f e.1, e.2))).get? (f name) = m.get? name := by
  refine Option.ext fun value => (get?_rename_eq_some_iff hf).trans ⟨?_, fun h => ⟨name, rfl, h⟩⟩
  rintro ⟨k, heq, hk⟩
  exact hf heq ▸ hk

/-! ### Sizes -/

/-- A map has one name for each of its entries. -/
theorem length_names (m : NameMap α) : m.names.length = m.size :=
  List.length_map _

/-- A map of bindings of different names has as many names as there are bindings. -/
theorem size_ofList {bindings : List (String × α)} (h : (bindings.map Prod.fst).Nodup) :
    (ofList bindings).size = bindings.length := by
  rw [← length_names, (names_ofList_perm h).length_eq, List.length_map]

/-- Two maps without common names are merged into one of both sizes. -/
theorem size_extend {m other : NameMap α} (h : ∀ name ∈ m.names, name ∉ other.names) :
    (m.extend other).size = m.size + other.size := by
  have hnodup : (m.names ++ other.names).Nodup :=
    List.nodup_append.mpr ⟨m.nodup_names, other.nodup_names, fun a ha b hb heq =>
      h a ha (heq ▸ hb)⟩
  have hperm : (m.extend other).names.Perm (m.names ++ other.names) := by
    refine (List.perm_ext_iff_of_nodup (nodup_names _) hnodup).mpr fun name => ?_
    rw [List.mem_append, mem_names_iff, mem_names_iff, mem_names_iff, get?_extend]
    cases other.get? name <;> simp
  rw [← length_names, hperm.length_eq, List.length_append, length_names, length_names]

/-! ### The order of entries -/

/-- **A list of insertions** binds each name to what was inserted for it last. -/
theorem get?_foldl_insert_eq_lookup (m : NameMap α) (bindings : List (String × α)) (name : String) :
    (bindings.foldl (fun m e => m.insert e.1 e.2) m).get? name =
      (bindings.reverse.lookup name).or (m.get? name) := by
  induction bindings generalizing m with
  | nil => rfl
  | cons e rest ih =>
      rw [List.foldl_cons, ih, List.reverse_cons, List.lookup_append, get?_insert, Option.or_assoc,
        List.lookup_cons]
      by_cases hname : name = e.1
      · simp [hname]
      · have hbeq : (name == e.1) = false := by simpa using hname
        simp [hname, hbeq]

/-- In a map of bindings the last binding of a name counts. -/
theorem get?_ofList_eq_lookup (bindings : List (String × α)) (name : String) :
    (ofList bindings).get? name = bindings.reverse.lookup name := by
  rw [ofList, get?_foldl_insert_eq_lookup, get?_empty, Option.or_none]

/-- **Entries that are listed in any order** are put into theirs by sorting them by name. -/
theorem mergeSort_of_perm_entries {m : NameMap α} {listed : List (String × α)}
    (h : listed.Perm m.entries) :
    (listed.mergeSort fun a b => decide (a.1 ≤ b.1)) = m.entries := by
  have hsorted : (listed.mergeSort fun a b => decide (a.1 ≤ b.1)).Pairwise fun a b => a.1 ≤ b.1 := by
    refine (List.pairwise_mergeSort (fun a b c hab hbc => ?_) (fun a b => ?_) listed).imp fun hab =>
      of_decide_eq_true hab
    · exact decide_eq_true (String.le_trans (of_decide_eq_true hab) (of_decide_eq_true hbc))
    · simpa using String.le_total a.1 b.1
  have hentries : m.entries.Pairwise fun a b => a.1 ≤ b.1 :=
    m.sorted.imp fun hab => String.not_lt.mp (String.lt_asymm hab)
  refine ((List.mergeSort_perm _ _).trans h).eq_of_pairwise ?_ hsorted hentries
  -- names that are not in order are the same, and so are their values
  rintro ⟨k, v⟩ ⟨k', v'⟩ ha hb hab hba
  obtain rfl : k = k' := String.le_antisymm hab hba
  have hv := mem_entries_iff.mp (h.mem_iff.mp (List.mem_mergeSort.mp ha))
  rw [mem_entries_iff.mp hb] at hv
  rw [Option.some.inj hv]

end NameMap

end ScopedSql
