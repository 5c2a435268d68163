import Mathlib.Data.List.Induction
import Mathlib.Data.List.Nodup
import SoliditySource.OrderedMap

/-! Laws of ordered maps. Insertion and removal leave the other keys alone, in their order, and
commute when they are about different keys. A map is well keyed when every value is stored under its
own key and no key is stored twice; insertion and removal keep this. A map filled from a list holds
every key once, where it first occurs, with the value it was last given. -/
namespace SoliditySource.OrderedMap

variable {κ α : Type} [DecidableEq κ]

theorem get?_isSome_iff (m : OrderedMap κ α) (key : κ) : (m.get? key).isSome ↔ key ∈ m.keys := by
  simp only [get?, keys, Option.isSome_map, List.find?_isSome, List.mem_map, decide_eq_true_eq]

theorem get?_eq_none_iff (m : OrderedMap κ α) (key : κ) : m.get? key = none ↔ key ∉ m.keys := by
  rw [← get?_isSome_iff, ← Option.not_isSome_iff_eq_none]

/-- A look-up finds an entry of the map. -/
theorem mem_entries_of_get? {m : OrderedMap κ α} {key : κ} {value : α}
    (h : m.get? key = some value) : (key, value) ∈ m.entries := by
  obtain ⟨entry, he, rfl⟩ := Option.map_eq_some_iff.mp h
  have hkey : entry.1 = key := by simpa using List.find?_some he
  subst hkey
  exact List.mem_of_find?_eq_some he

/-- An entry is found by its key when no key is stored twice. -/
theorem get?_of_mem_entries {m : OrderedMap κ α} (hn : m.keys.Nodup) {key : κ} {value : α}
    (h : (key, value) ∈ m.entries) : m.get? key = some value := by
  obtain ⟨found, hf⟩ := Option.isSome_iff_exists.mp
    ((get?_isSome_iff m key).mpr (List.mem_map.mpr ⟨_, h, rfl⟩))
  have hm := mem_entries_of_get? hf
  have he := List.inj_on_of_nodup_map hn hm h rfl
  rw [hf, (Prod.mk.inj he).2]

/-- A look-up finds the first entry of its key. -/
theorem exists_split_of_get? {m : OrderedMap κ α} {key : κ} {value : α}
    (h : m.get? key = some value) :
    ∃ before after, m.entries = before ++ (key, value) :: after ∧
      key ∉ before.map Prod.fst := by
  obtain ⟨entry, he, rfl⟩ := Option.map_eq_some_iff.mp h
  obtain ⟨hkey, before, after, hsplit, hbefore⟩ := List.find?_eq_some_iff_append.mp he
  obtain rfl : entry.1 = key := by simpa using hkey
  refine ⟨before, after, hsplit, fun hm => ?_⟩
  obtain ⟨other, ho, hsame⟩ := List.mem_map.mp hm
  simpa [hsame] using hbefore other ho

/-- Where no key is stored twice, the entries are the keys with what is found under them. -/
theorem entries_eq_filterMap_keys {m : OrderedMap κ α} (hn : m.keys.Nodup) :
    m.entries = m.keys.filterMap fun key => (m.get? key).map (key, ·) := by
  have hfound : ∀ entry ∈ m.entries, (m.get? entry.1).map (entry.1, ·) = some entry :=
    fun entry he => by rw [get?_of_mem_entries hn he, Option.map_some]
  calc m.entries = m.entries.filterMap some := List.filterMap_some.symm
    _ = m.keys.filterMap fun key => (m.get? key).map (key, ·) := by
        rw [keys, List.filterMap_map]
        exact (List.filterMap_congr hfound).symm

theorem mem_insertEntry {key : κ} {value : α} {entries : List (κ × α)} {entry : κ × α}
    (h : entry ∈ insertEntry key value entries) : entry = (key, value) ∨ entry ∈ entries := by
  induction entries with
  | nil => simpa [insertEntry] using h
  | cons first rest ih =>
    unfold insertEntry at h
    split_ifs at h with hk
    · rcases List.mem_cons.mp h with rfl | h
      · exact .inl rfl
      · exact .inr (List.mem_cons_of_mem _ h)
    · rcases List.mem_cons.mp h with rfl | h
      · exact .inr (by simp)
      · exact (ih h).imp_right (List.mem_cons_of_mem _)

/-- A new key goes to the end. -/
theorem insertEntry_of_notMem {key : κ} {value : α} {entries : List (κ × α)}
    (h : key ∉ entries.map Prod.fst) :
    insertEntry key value entries = entries ++ [(key, value)] := by
  induction entries with
  | nil => rfl
  | cons first rest ih =>
    simp only [List.map_cons, List.mem_cons, not_or] at h
    simp [insertEntry, Ne.symm h.1, ih h.2]

theorem insertEntry_append_cons {key : κ} {before : List (κ × α)}
    (h : key ∉ before.map Prod.fst) (old value : α) (after : List (κ × α)) :
    insertEntry key value (before ++ (key, old) :: after) = before ++ (key, value) :: after := by
  induction before with
  | nil => simp [insertEntry]
  | cons first rest ih =>
    simp only [List.map_cons, List.mem_cons, not_or] at h
    simp [insertEntry, Ne.symm h.1, ih h.2]

/-- A present key keeps its place, and the order of the keys stays the same. -/
theorem keys_insertEntry_of_mem {key : κ} {value : α} {entries : List (κ × α)}
    (h : key ∈ entries.map Prod.fst) :
    (insertEntry key value entries).map Prod.fst = entries.map Prod.fst := by
  induction entries with
  | nil => simp at h
  | cons first rest ih =>
    by_cases hk : first.1 = key
    · simp [insertEntry, hk]
    · have hr : key ∈ rest.map Prod.fst := by
        rcases List.mem_cons.mp h with he | hr
        · exact absurd he.symm hk
        · exact hr
      simp [insertEntry, hk, ih hr]

theorem keys_insert (m : OrderedMap κ α) (key : κ) (value : α) :
    (m.insert key value).keys = if key ∈ m.keys then m.keys else m.keys ++ [key] := by
  split_ifs with h
  · exact keys_insertEntry_of_mem h
  · simp [keys, insert, insertEntry_of_notMem h]

theorem nodup_keys_insert {m : OrderedMap κ α} (h : m.keys.Nodup) (key : κ) (value : α) :
    (m.insert key value).keys.Nodup := by
  rw [keys_insert]
  split_ifs with hm
  · exact h
  · exact List.nodup_append.mpr ⟨h, by simp, by grind⟩

theorem get?_insert (m : OrderedMap κ α) (key other : κ) (value : α) :
    (m.insert key value).get? other = if key = other then some value else m.get? other := by
  obtain ⟨entries⟩ := m
  induction entries with
  | nil => by_cases h : key = other <;> simp [get?, insert, insertEntry, h]
  | cons first rest ih =>
    simp only [get?, insert, insertEntry] at ih ⊢
    by_cases hk : first.1 = key
    · by_cases ho : key = other <;> simp [hk, ho]
    · rw [if_neg hk]
      by_cases ho : first.1 = other
      · have hne : key ≠ other := fun he => hk (ho.trans he.symm)
        simp [ho, hne]
      · simpa [ho] using ih

/-- Of two values stored under a key, the later one stays. -/
theorem insert_insert (m : OrderedMap κ α) (key : κ) (earlier later : α) :
    (m.insert key earlier).insert key later = m.insert key later := by
  obtain ⟨entries⟩ := m
  induction entries with
  | nil => simp [insert, insertEntry]
  | cons first rest ih =>
    simp only [insert, insertEntry, mk.injEq] at ih ⊢
    by_cases hk : first.1 = key <;> simp [insertEntry, hk, ih]

theorem eraseEntry_of_notMem {key : κ} {entries : List (κ × α)}
    (h : key ∉ entries.map Prod.fst) : eraseEntry key entries = entries := by
  induction entries with
  | nil => rfl
  | cons first rest ih =>
    simp only [List.map_cons, List.mem_cons, not_or] at h
    simp [eraseEntry, Ne.symm h.1, ih h.2]

theorem eraseEntry_sublist (key : κ) (entries : List (κ × α)) :
    (eraseEntry key entries).Sublist entries := by
  induction entries with
  | nil => exact .slnil
  | cons first rest ih =>
    unfold eraseEntry
    split_ifs
    · exact List.sublist_cons_self first rest
    · exact ih.cons_cons first

/-- Removing an absent key changes nothing. -/
theorem erase_of_get?_eq_none {m : OrderedMap κ α} {key : κ} (h : m.get? key = none) :
    m.erase key = m := by
  rw [get?_eq_none_iff] at h
  simp [erase, eraseEntry_of_notMem h]

/-- Where no key is stored twice, a removal keeps exactly the entries of the other keys. -/
theorem entries_erase {m : OrderedMap κ α} (h : m.keys.Nodup) (key : κ) :
    (m.erase key).entries = m.entries.filter (·.1 ≠ key) := by
  obtain ⟨entries⟩ := m
  simp only [erase]
  induction entries with
  | nil => rfl
  | cons first rest ih =>
    simp only [keys, List.map_cons, List.nodup_cons] at h
    by_cases hk : first.1 = key
    · have hrest : ∀ entry ∈ rest, entry.1 ≠ key := fun entry he hkey =>
        h.1 (List.mem_map.mpr ⟨entry, he, hkey.trans hk.symm⟩)
      have hkeep : rest.filter (·.1 ≠ key) = rest :=
        List.filter_eq_self.mpr fun entry he => by simpa using hrest entry he
      rw [eraseEntry, if_pos hk, List.filter_cons_of_neg (by simpa using hk), hkeep]
    · simp [eraseEntry, hk, ih h.2]

theorem keys_erase {m : OrderedMap κ α} (h : m.keys.Nodup) (key : κ) :
    (m.erase key).keys = m.keys.filter (· ≠ key) := by
  rw [keys, entries_erase h, keys, List.filter_map]
  rfl

/-- A new key that is removed again leaves no trace. -/
theorem erase_insert_of_notMem {m : OrderedMap κ α} {key : κ} (h : key ∉ m.keys) (value : α) :
    (m.insert key value).erase key = m := by
  obtain ⟨entries⟩ := m
  rw [insert, insertEntry_of_notMem h]
  simp only [erase, mk.injEq]
  induction entries with
  | nil => simp [eraseEntry]
  | cons first rest ih =>
    simp only [keys, List.map_cons, List.mem_cons, not_or] at h
    simpa [eraseEntry, Ne.symm h.1] using ih h.2

/-! Operations on two different keys do not meet. -/

theorem get?_erase_of_ne (m : OrderedMap κ α) {key other : κ} (h : other ≠ key) :
    (m.erase key).get? other = m.get? other := by
  obtain ⟨entries⟩ := m
  simp only [get?, erase]
  induction entries with
  | nil => rfl
  | cons first rest ih =>
    by_cases hk : first.1 = key
    · simp [eraseEntry, hk, Ne.symm h]
    · by_cases ho : first.1 = other
      · simp [eraseEntry, ho, h]
      · simpa [eraseEntry, hk, ho] using ih

theorem insert_erase_comm (m : OrderedMap κ α) {key other : κ} (h : other ≠ key) (value : α) :
    (m.erase key).insert other value = (m.insert other value).erase key := by
  obtain ⟨entries⟩ := m
  simp only [insert, erase, mk.injEq]
  induction entries with
  | nil => simp [insertEntry, eraseEntry, h]
  | cons first rest ih =>
    by_cases hk : first.1 = key
    · simp [insertEntry, eraseEntry, hk, Ne.symm h]
    · by_cases ho : first.1 = other
      · simp [insertEntry, eraseEntry, ho, h]
      · simpa [insertEntry, eraseEntry, hk, ho] using ih

theorem erase_comm (m : OrderedMap κ α) (key other : κ) :
    (m.erase key).erase other = (m.erase other).erase key := by
  obtain ⟨entries⟩ := m
  simp only [erase, mk.injEq]
  induction entries with
  | nil => rfl
  | cons first rest ih =>
    by_cases hk : first.1 = key
    · by_cases ho : first.1 = other
      · rw [← hk, ← ho]
      · have hne : key ≠ other := fun he => ho (hk.trans he)
        simp [eraseEntry, hk, hne]
    · by_cases ho : first.1 = other
      · have hne : other ≠ key := fun he => hk (ho.trans he)
        simp [eraseEntry, ho, hne]
      · simpa [eraseEntry, hk, ho] using ih

/-- Every value is stored under its own key, and no key is stored twice. -/
structure WellKeyed (keyOf : α → κ) (m : OrderedMap κ α) : Prop where
  stored : ∀ entry ∈ m.entries, entry.1 = keyOf entry.2
  nodup : m.keys.Nodup

namespace WellKeyed

variable {keyOf : α → κ} {m : OrderedMap κ α}

omit [DecidableEq κ] in
theorem empty : WellKeyed keyOf ({} : OrderedMap κ α) :=
  ⟨by simp, by simp [keys]⟩

theorem insert (h : WellKeyed keyOf m) {key : κ} {value : α} (hk : key = keyOf value) :
    WellKeyed keyOf (m.insert key value) := by
  refine ⟨fun entry he => ?_, nodup_keys_insert h.nodup key value⟩
  rcases mem_insertEntry he with rfl | he
  · exact hk
  · exact h.stored entry he

theorem erase (h : WellKeyed keyOf m) (key : κ) : WellKeyed keyOf (m.erase key) :=
  ⟨fun entry he => h.stored entry ((eraseEntry_sublist key m.entries).subset he),
    ((eraseEntry_sublist key m.entries).map Prod.fst).nodup h.nodup⟩

theorem key_of_get? (h : WellKeyed keyOf m) {key : κ} {value : α}
    (hg : m.get? key = some value) : keyOf value = key :=
  (h.stored _ (mem_entries_of_get? hg)).symm

end WellKeyed

/-- The map after insertions from left to right. -/
def insertAll (m : OrderedMap κ α) (entries : List (κ × α)) : OrderedMap κ α :=
  entries.foldl (fun m entry => m.insert entry.1 entry.2) m

/-- The value that a list of entries gives to a key in the end. -/
def lastValue? (key : κ) (entries : List (κ × α)) : Option α :=
  (entries.filter (·.1 = key)).getLast?.map Prod.snd

theorem lastValue?_concat (key : κ) (entries : List (κ × α)) (entry : κ × α) :
    lastValue? key (entries ++ [entry]) =
      if entry.1 = key then some entry.2 else lastValue? key entries := by
  by_cases h : entry.1 = key <;> simp [lastValue?, List.filter_append, h]

theorem insertAll_concat (m : OrderedMap κ α) (entries : List (κ × α)) (entry : κ × α) :
    m.insertAll (entries ++ [entry]) = (m.insertAll entries).insert entry.1 entry.2 := by
  simp [insertAll, List.foldl_append]

/-- Every key is kept once, where it first occurs. -/
theorem keys_insertAll (entries : List (κ × α)) :
    (insertAll {} entries).keys = (entries.map Prod.fst).eraseDups := by
  induction entries using List.reverseRecOn with
  | nil => rfl
  | append_singleton entries entry ih =>
    rw [insertAll_concat, keys_insert, ih, List.map_append, List.eraseDups_append]
    by_cases h : entry.1 ∈ entries.map Prod.fst
    · simp [List.mem_eraseDups, h, List.removeAll]
    · simp [List.mem_eraseDups, h, List.removeAll, List.eraseDups_cons]

/-- Every key has the value it was last given. -/
theorem get?_insertAll (entries : List (κ × α)) (key : κ) :
    (insertAll {} entries).get? key = lastValue? key entries := by
  induction entries using List.reverseRecOn with
  | nil => rfl
  | append_singleton entries entry ih =>
    rw [insertAll_concat, get?_insert, ih, lastValue?_concat]

theorem nodup_keys_insertAll (entries : List (κ × α)) : (insertAll {} entries).keys.Nodup := by
  induction entries using List.reverseRecOn with
  | nil => exact List.nodup_nil
  | append_singleton entries entry ih =>
    rw [insertAll_concat]
    exact nodup_keys_insert ih entry.1 entry.2

/-- Entries with new and distinct keys are appended as they are. -/
theorem insertAll_of_nodup (m : OrderedMap κ α) (entries : List (κ × α))
    (h : (m.keys ++ entries.map Prod.fst).Nodup) :
    m.insertAll entries = ⟨m.entries ++ entries⟩ := by
  induction entries generalizing m with
  | nil => simp [insertAll]
  | cons entry rest ih =>
    have hnew : entry.1 ∉ m.keys := fun hm =>
      (List.nodup_append.mp h).2.2 entry.1 hm entry.1 (by simp) rfl
    have hinsert : m.insert entry.1 entry.2 = ⟨m.entries ++ [entry]⟩ := by
      rw [insert, insertEntry_of_notMem hnew]
    have hrest : (keys ⟨m.entries ++ [entry]⟩ ++ rest.map Prod.fst).Nodup := by
      simpa [keys] using h
    calc m.insertAll (entry :: rest)
        = insertAll ⟨m.entries ++ [entry]⟩ rest := by rw [← hinsert]; rfl
      _ = ⟨m.entries ++ entry :: rest⟩ := by rw [ih _ hrest]; simp

theorem lastValue?_of_mem_insertAll {entries : List (κ × α)} {entry : κ × α}
    (h : entry ∈ (insertAll {} entries).entries) :
    lastValue? entry.1 entries = some entry.2 := by
  rw [← get?_insertAll]
  exact get?_of_mem_entries (nodup_keys_insertAll entries) h

end SoliditySource.OrderedMap
