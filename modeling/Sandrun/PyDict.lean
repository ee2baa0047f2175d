import Mathlib.Data.List.Nodup

/-!
# Python dictionaries

The job table, the worker registry and the quota counters of `sandrun` are Python
`dict`s, and two properties of those matter to the code: a missing key is an error
(`del d[k]` raises `KeyError`) or, for a `defaultdict`, silently inserted; and the keys
are iterated in insertion order, which decides the order in which `_load_jobs` resubmits
jobs and in which `cleanup_inactive_ips` deletes callers.

A `PyDict` is therefore its keys in insertion order together with a lookup function,
and carries as fields that the keys are distinct and are exactly the keys with a value.

## Main definitions

* `PyDict` — a dictionary, with `get?` (`d.get(k)`), `set` (`d[k] = v`), `erase`
  (`del d[k]` on a present key) and `modify` (an update through a stored reference).
* `PyDict.items` — `d.items()`, in iteration order.
-/

namespace Sandrun

/-- A Python `dict`: its keys in insertion order and the value stored under each. -/
structure PyDict (κ ν : Type) where
  /-- The keys, in insertion order. -/
  keys : List κ
  /-- The value stored under a key: `d.get(k)`. -/
  get? : κ → Option ν
  keys_nodup : keys.Nodup
  mem_keys : ∀ k, k ∈ keys ↔ (get? k).isSome

namespace PyDict

variable {κ ν : Type}

/-- The empty dictionary `{}`. -/
def empty : PyDict κ ν := ⟨[], fun _ => none, List.nodup_nil, by simp⟩

/-- `d.items()`, in iteration order. -/
def items (d : PyDict κ ν) : List (κ × ν) :=
  d.keys.filterMap fun k => (d.get? k).map (k, ·)

/-- The values, `d.values()`. -/
def values (d : PyDict κ ν) : List ν := d.items.map Prod.snd

@[simp] theorem get?_empty (k : κ) : (empty : PyDict κ ν).get? k = none := rfl

@[simp] theorem keys_empty : (empty : PyDict κ ν).keys = [] := rfl

theorem mem_keys_iff (d : PyDict κ ν) (k : κ) : k ∈ d.keys ↔ ∃ v, d.get? k = some v := by
  rw [d.mem_keys k, Option.isSome_iff_exists]

theorem mem_items (d : PyDict κ ν) (k : κ) (v : ν) : (k, v) ∈ d.items ↔ d.get? k = some v := by
  simp only [items, List.mem_filterMap, Option.map_eq_some', Prod.mk.injEq]
  constructor
  · rintro ⟨k', -, v', h, rfl, rfl⟩
    exact h
  · intro h
    exact ⟨k, (d.mem_keys_iff k).2 ⟨v, h⟩, v, h, rfl, rfl⟩

theorem mem_values (d : PyDict κ ν) (v : ν) : v ∈ d.values ↔ ∃ k, d.get? k = some v := by
  simp [values, mem_items]

/-- Iterating the items visits every key once, in order. -/
theorem items_map_fst (d : PyDict κ ν) : d.items.map Prod.fst = d.keys := by
  rw [items, List.map_filterMap]
  conv_rhs => rw [← List.filterMap_some d.keys]
  refine List.filterMap_congr fun k hk => ?_
  obtain ⟨v, hv⟩ := (d.mem_keys_iff k).1 hk
  simp [hv]

/-- The items of a list with distinct keys are read back in order from a lookup that
holds them. -/
theorem filterMap_lookup (g : κ → Option ν) {l : List (κ × ν)} (hg : ∀ e ∈ l, g e.1 = some e.2) :
    (l.map Prod.fst).filterMap (fun k => (g k).map (k, ·)) = l := by
  induction l with
  | nil => rfl
  | cons e l ih =>
    rw [List.map_cons, List.filterMap_cons, hg e (List.mem_cons_self e l), Option.map_some',
      ih fun e' he' => hg e' (List.mem_cons_of_mem e he')]

@[ext] theorem ext {d₁ d₂ : PyDict κ ν} (hk : d₁.keys = d₂.keys)
    (hg : ∀ k, d₁.get? k = d₂.get? k) : d₁ = d₂ := by
  cases d₁; cases d₂
  simp only at hk hg
  subst hk
  congr
  exact funext hg

/-- The value `d[k]` gives on a `defaultdict` whose factory makes `dflt`. -/
def getD (d : PyDict κ ν) (k : κ) (dflt : ν) : ν := (d.get? k).getD dflt

theorem getD_of_get? {d : PyDict κ ν} {k : κ} {dflt : ν} {v : ν} (h : d.get? k = some v) :
    d.getD k dflt = v := by
  simp [getD, h]

/-- `{k: f(k, v) for k, v in d.items()}`: every value rewritten in place. -/
def map (d : PyDict κ ν) (f : κ → ν → ν) : PyDict κ ν where
  keys := d.keys
  get? k := (d.get? k).map (f k)
  keys_nodup := d.keys_nodup
  mem_keys k := by rw [d.mem_keys k]; cases h : d.get? k <;> simp [h]

/-- `{k: v for k, v in d.items() if keep(k, v)}`. -/
def filter (d : PyDict κ ν) (keep : κ → ν → Bool) : PyDict κ ν where
  keys := d.keys.filter fun k => (d.get? k).any (keep k)
  get? k := (d.get? k).filter (keep k)
  keys_nodup := d.keys_nodup.filter _
  mem_keys k := by
    rw [List.mem_filter, d.mem_keys k]
    cases h : d.get? k <;> simp [h, Option.filter]

@[simp] theorem get?_map (d : PyDict κ ν) (f : κ → ν → ν) (k : κ) :
    (d.map f).get? k = (d.get? k).map (f k) := rfl

@[simp] theorem get?_filter (d : PyDict κ ν) (keep : κ → ν → Bool) (k : κ) :
    (d.filter keep).get? k = (d.get? k).filter (keep k) := rfl

variable [DecidableEq κ]

/-- `d[k] = v`: a new key goes to the end of the iteration order, an old one keeps its
place. -/
def set (d : PyDict κ ν) (k : κ) (v : ν) : PyDict κ ν where
  keys := if k ∈ d.keys then d.keys else d.keys ++ [k]
  get? := Function.update d.get? k (some v)
  keys_nodup := by
    split
    · exact d.keys_nodup
    · exact d.keys_nodup.append (List.nodup_singleton k) (by simpa using ‹k ∉ d.keys›)
  mem_keys k' := by
    by_cases h : k' = k
    · subst h; split <;> simp_all
    · rw [Function.update_noteq h, ← d.mem_keys k']
      split <;> simp [h]

/-- `del d[k]` for a key that is present; on a missing key it is `d` itself. -/
def erase (d : PyDict κ ν) (k : κ) : PyDict κ ν where
  keys := d.keys.erase k
  get? := Function.update d.get? k none
  keys_nodup := d.keys_nodup.erase k
  mem_keys k' := by
    by_cases h : k' = k
    · subst h; simp [d.keys_nodup.not_mem_erase]
    · simp [d.keys_nodup.mem_erase_iff, h, d.mem_keys k']

/-- A write through a reference to the value stored under `k`, such as
`job.status = "running"` on a job object the table holds; nothing if `k` is absent. -/
def modify (d : PyDict κ ν) (k : κ) (f : ν → ν) : PyDict κ ν :=
  match d.get? k with
  | some v => d.set k (f v)
  | none => d

/-- Writing back the value a key holds changes nothing. -/
theorem set_of_get? {d : PyDict κ ν} {k : κ} {v : ν} (h : d.get? k = some v) : d.set k v = d := by
  ext k'
  · simp [set, (d.mem_keys k).2 (by simp [h])]
  · by_cases hk : k' = k
    · subst hk; simp [set, h]
    · simp [set, hk, Function.update_noteq]

@[simp] theorem get?_set (d : PyDict κ ν) (k k' : κ) (v : ν) :
    (d.set k v).get? k' = if k' = k then some v else d.get? k' := by
  by_cases h : k' = k <;> simp [set, h, Function.update_noteq]

@[simp] theorem get?_erase (d : PyDict κ ν) (k k' : κ) :
    (d.erase k).get? k' = if k' = k then none else d.get? k' := by
  by_cases h : k' = k <;> simp [erase, h, Function.update_noteq]

@[simp] theorem get?_modify (d : PyDict κ ν) (k k' : κ) (f : ν → ν) :
    (d.modify k f).get? k' = if k' = k then (d.get? k).map f else d.get? k' := by
  unfold modify
  split <;> rename_i h <;> by_cases h' : k' = k <;> simp_all

/-- What a lookup after a write through a reference finds: the written value, or the
old one under another key. -/
theorem get?_modify_eq_some {d : PyDict κ ν} {k k' : κ} {f : ν → ν} {v : ν} :
    (d.modify k f).get? k' = some v ↔
      (k' = k ∧ ∃ v₀, d.get? k = some v₀ ∧ f v₀ = v) ∨ (k' ≠ k ∧ d.get? k' = some v) := by
  rw [get?_modify]
  by_cases h : k' = k <;> simp [h]

@[simp] theorem isSome_get?_modify (d : PyDict κ ν) (k k' : κ) (f : ν → ν) :
    ((d.modify k f).get? k').isSome = (d.get? k').isSome := by
  rw [get?_modify]
  split_ifs with h
  · subst h; cases d.get? k' <;> rfl
  · rfl

@[simp] theorem keys_modify (d : PyDict κ ν) (k : κ) (f : ν → ν) :
    (d.modify k f).keys = d.keys := by
  unfold modify
  split
  · simp [set, (d.mem_keys k).2 (by simp [*])]
  · rfl

@[simp] theorem modify_modify (d : PyDict κ ν) (k : κ) (f g : ν → ν) :
    (d.modify k f).modify k g = d.modify k (g ∘ f) := by
  ext k' <;> simp [Option.map_map]
  split <;> simp_all

/-! ### `defaultdict` -/

/-- The dictionary after `d[k]` is read on a `defaultdict`: a missing key is inserted
with the default. -/
def touch (d : PyDict κ ν) (k : κ) (dflt : ν) : PyDict κ ν :=
  match d.get? k with
  | some _ => d
  | none => d.set k dflt

/-- `d[k].op()` on a `defaultdict`, for an operation `f` that mutates the value. -/
def modifyD (d : PyDict κ ν) (k : κ) (dflt : ν) (f : ν → ν) : PyDict κ ν :=
  d.set k (f (d.getD k dflt))

@[simp] theorem get?_touch (d : PyDict κ ν) (k k' : κ) (dflt : ν) :
    (d.touch k dflt).get? k' = if k' = k then some (d.getD k dflt) else d.get? k' := by
  unfold touch getD
  split <;> rename_i h <;> by_cases h' : k' = k <;> simp_all

@[simp] theorem get?_modifyD (d : PyDict κ ν) (k k' : κ) (dflt : ν) (f : ν → ν) :
    (d.modifyD k dflt f).get? k' = if k' = k then some (f (d.getD k dflt)) else d.get? k' := by
  simp [modifyD]

@[simp] theorem getD_touch (d : PyDict κ ν) (k k' : κ) (dflt : ν) :
    (d.touch k dflt).getD k' dflt = d.getD k' dflt := by
  unfold getD
  rw [get?_touch]
  split_ifs with h
  · subst h; rfl
  · rfl

@[simp] theorem getD_modifyD (d : PyDict κ ν) (k k' : κ) (dflt : ν) (f : ν → ν) :
    (d.modifyD k dflt f).getD k' dflt = if k' = k then f (d.getD k dflt) else d.getD k' dflt := by
  unfold getD
  rw [get?_modifyD]
  split_ifs <;> rfl

@[simp] theorem getD_set (d : PyDict κ ν) (k k' : κ) (v dflt : ν) :
    (d.set k v).getD k' dflt = if k' = k then v else d.getD k' dflt := by
  unfold getD
  rw [get?_set]
  split_ifs <;> rfl

/-- `d[k] = v` for every item of a list, in order. -/
def setAll (d : PyDict κ ν) (l : List (κ × ν)) : PyDict κ ν := l.foldl (fun d e => d.set e.1 e.2) d

@[simp] theorem setAll_nil (d : PyDict κ ν) : d.setAll [] = d := rfl

@[simp] theorem setAll_cons (d : PyDict κ ν) (e : κ × ν) (l : List (κ × ν)) :
    d.setAll (e :: l) = (d.set e.1 e.2).setAll l := rfl

theorem get?_setAll_of_not_mem (d : PyDict κ ν) {l : List (κ × ν)} {k : κ}
    (hk : k ∉ l.map Prod.fst) : (d.setAll l).get? k = d.get? k := by
  induction l generalizing d with
  | nil => rfl
  | cons e l ih =>
    simp only [List.map_cons, List.mem_cons, not_or] at hk
    rw [setAll_cons, ih _ hk.2, get?_set, if_neg hk.1]

theorem get?_setAll_of_mem (d : PyDict κ ν) {l : List (κ × ν)} (hl : (l.map Prod.fst).Nodup)
    {k : κ} {v : ν} (hkv : (k, v) ∈ l) : (d.setAll l).get? k = some v := by
  induction l generalizing d with
  | nil => simp at hkv
  | cons e l ih =>
    simp only [List.map_cons, List.nodup_cons] at hl
    rw [setAll_cons]
    rcases List.mem_cons.1 hkv with rfl | hkv
    · rw [get?_setAll_of_not_mem _ hl.1]; simp
    · exact ih _ hl.2 hkv

/-- A value found after `setAll` was there before or is one of the items set. -/
theorem get?_setAll_eq_some (d : PyDict κ ν) {l : List (κ × ν)} {k : κ} {v : ν}
    (h : (d.setAll l).get? k = some v) : d.get? k = some v ∨ (k, v) ∈ l := by
  induction l generalizing d with
  | nil => exact .inl h
  | cons e l ih =>
    rcases ih _ h with h' | h'
    · rw [get?_set] at h'
      split_ifs at h' with he
      · cases h'; exact .inr (List.mem_cons.2 (.inl (by rw [he])))
      · exact .inl h'
    · exact .inr (List.mem_cons_of_mem e h')

/-- Setting every item of `d` into the empty dictionary rebuilds `d`'s lookup. -/
theorem get?_setAll_items (d : PyDict κ ν) (k : κ) : (empty.setAll d.items).get? k = d.get? k := by
  have hl : (d.items.map Prod.fst).Nodup := d.items_map_fst ▸ d.keys_nodup
  cases h : d.get? k with
  | some v => exact get?_setAll_of_mem _ hl ((d.mem_items k v).2 h)
  | none =>
    rw [get?_setAll_of_not_mem _ (by rw [items_map_fst, d.mem_keys]; simp [h]), get?_empty]

/-- Setting new keys, all distinct, appends them to the iteration order. -/
theorem keys_setAll (d : PyDict κ ν) {l : List (κ × ν)} (h : (d.keys ++ l.map Prod.fst).Nodup) :
    (d.setAll l).keys = d.keys ++ l.map Prod.fst := by
  induction l generalizing d with
  | nil => simp
  | cons e l ih =>
    have he : e.1 ∉ d.keys := fun he => (List.nodup_append.1 h).2.2 he (List.mem_cons_self _ _)
    have hs : (d.set e.1 e.2).keys = d.keys ++ [e.1] := if_neg he
    rw [setAll_cons, ih _ (by rwa [hs, List.append_assoc]), hs, List.append_assoc]
    rfl

/-- `dict(pairs)` on distinct keys iterates the pairs in their order. -/
theorem items_setAll_empty {l : List (κ × ν)} (h : (l.map Prod.fst).Nodup) :
    (empty.setAll l).items = l := by
  rw [items, keys_setAll _ (by simpa using h), keys_empty, List.nil_append]
  exact filterMap_lookup _ fun e he => get?_setAll_of_mem _ h he

/-- Setting every item of `d` into the empty dictionary rebuilds `d`. -/
theorem setAll_items (d : PyDict κ ν) : empty.setAll d.items = d := by
  have hl : (d.items.map Prod.fst).Nodup := d.items_map_fst ▸ d.keys_nodup
  refine ext ?_ (get?_setAll_items d)
  rw [keys_setAll _ (by simpa using hl), keys_empty, List.nil_append, items_map_fst]

end PyDict

end Sandrun
