import Mathlib.Data.List.AList

/-! Python's insertion-ordered dict, as an association list kept newest first. -/

namespace BetSettlement.Python

variable {κ ν : Type} [DecidableEq κ]

abbrev Dict (κ ν : Type) := AList fun _ : κ => ν

namespace Dict

/-- `d[k] = v`: an existing key keeps its place. -/
def setItem (d : Dict κ ν) (k : κ) (v : ν) : Dict κ ν :=
  if k ∈ d then d.replace k v else d.insert k v

theorem dlookup_kreplace (k key : κ) (v : ν) (entries : List (Σ _ : κ, ν)) :
    (entries.kreplace k v).dlookup key =
      if key = k then (entries.dlookup key).map fun _ => v else entries.dlookup key := by
  unfold List.kreplace
  induction entries with
  | nil => simp
  | cons entry rest ih =>
    obtain ⟨name, value⟩ := entry
    rw [List.lookmap_cons]
    by_cases found : k = name
    · subst found
      by_cases same : key = k
      · subst same
        simp
      · simp [same, List.dlookup_cons_ne]
    · simp only [found, if_false]
      by_cases here : key = name
      · subst here
        simp [Ne.symm found]
      · rw [List.dlookup_cons_ne _ _ here, List.dlookup_cons_ne _ _ here, ih]

@[simp]
theorem lookup_setItem (d : Dict κ ν) (k key : κ) (v : ν) :
    (d.setItem k v).lookup key = if key = k then some v else d.lookup key := by
  unfold setItem
  split
  · rename_i present
    change (d.entries.kreplace k v).dlookup key = _
    rw [dlookup_kreplace]
    by_cases same : key = k
    · subst same
      obtain ⟨old, found⟩ := Option.isSome_iff_exists.mp (AList.lookup_isSome.mpr present)
      change d.entries.dlookup key = some old at found
      simp [found]
    · simp [same, AList.lookup]
  · by_cases same : key = k
    · subst same
      simp
    · simp [same, AList.lookup_insert_ne]

/-- `list(d.values())`. -/
def values (d : Dict κ ν) : List ν := d.entries.reverse.map Sigma.snd

theorem mem_values {d : Dict κ ν} {v : ν} : v ∈ d.values ↔ ∃ k, d.lookup k = some v := by
  simp only [values, List.mem_map, List.mem_reverse]
  constructor
  · rintro ⟨⟨k, w⟩, member, rfl⟩
    exact ⟨k, AList.mem_lookup_iff.mpr member⟩
  · rintro ⟨k, found⟩
    exact ⟨⟨k, v⟩, AList.mem_lookup_iff.mp found, rfl⟩

/-- Values that carry their key stand once each. -/
theorem values_nodup {d : Dict κ ν} {key : ν → κ} (keyed : ∀ k v, d.lookup k = some v → key v = k) :
    (d.values.map key).Nodup := by
  have keys : d.values.map key = d.keys.reverse := by
    simp only [values, AList.keys, List.keys, List.map_map, ← List.map_reverse]
    refine List.map_congr_left fun entry member => ?_
    exact keyed entry.1 entry.2 (AList.mem_lookup_iff.mpr (List.mem_reverse.mp member))
  rw [keys]
  exact List.nodup_reverse.mpr d.keys_nodup

end Dict

end BetSettlement.Python
