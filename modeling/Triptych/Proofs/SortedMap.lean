import Triptych.SortedMap

/-!
# The last one counts

A list of entries describes a map, and of entries with one key the last counts. The same is true
wherever the library goes through a list and lets an item take the place of an earlier one: what is
found in a place afterwards is the last item that went there (`view_foldl`). For maps this is
`get?_ofEntries`.
-/

namespace Triptych

/-- **A later item takes the place of an earlier one.** If a step puts an item that is chosen into a
place and leaves the place alone otherwise, then after all steps the last item that was chosen is
there, or what was there before. -/
theorem view_foldl {σ α β : Type} {step : σ → α → σ} {chosen : α → Bool} (view : σ → Option β)
    (value : α → β)
    (hstep : ∀ state item, view (step state item) = if chosen item then some (value item)
      else view state)
    (items : List α) (state : σ) :
    view (items.foldl step state) = ((items.filter chosen).getLast?.map value).or (view state) := by
  induction items generalizing state with
  | nil => rfl
  | cons item items ih =>
    rw [List.foldl_cons, ih, hstep]
    by_cases hitem : chosen item = true
    · rw [if_pos hitem, List.filter_cons_of_pos hitem, List.getLast?_cons]
      -- The item goes to the place, and stays there unless another one comes.
      cases (items.filter chosen).getLast? with
      | none => rfl
      | some later => rfl
    · rw [if_neg hitem, List.filter_cons_of_neg hitem]

namespace SortedMap

variable {α : Type}

theorem get?_cons (entry : String × α) (map : SortedMap α) (key : String) :
    get? key (entry :: map) = if entry.1 = key then some entry.2 else get? key map := by
  unfold get?
  by_cases hkey : entry.1 = key
  · rw [if_pos hkey, List.find?_cons_of_pos (by simpa using hkey), Option.map_some]
  · rw [if_neg hkey, List.find?_cons_of_neg (by simpa using hkey)]

/-- A key that is set has its value, and the others have what they had. -/
theorem get?_insert (key other : String) (value : α) (map : SortedMap α) :
    get? other (insert key value map) = if key = other then some value else get? other map := by
  induction map with
  | nil => exact get?_cons (key, value) [] other
  | cons entry rest ih =>
    unfold insert
    split
    next => exact get?_cons (key, value) _ other
    next =>
      split
      next hsame =>
        -- The old entry of the key is gone, and it is not the one that another key is looked up in.
        rw [get?_cons, get?_cons]
        split
        next => rfl
        next hother =>
          rw [if_neg]
          exact hsame ▸ hother
      next hdiffers =>
        rw [get?_cons, get?_cons, ih]
        by_cases hkey : key = other
        · rw [if_pos hkey, if_pos hkey, if_neg]
          exact fun hentry => hdiffers (hkey.trans hentry.symm)
        · rw [if_neg hkey, if_neg hkey]

/-- **Of the entries with a key the last counts.** -/
theorem get?_ofEntries (entries : List (String × α)) (key : String) :
    get? key (ofEntries entries) =
      (entries.filter fun entry => entry.1 = key).getLast?.map Prod.snd := by
  have hstep (map : SortedMap α) (entry : String × α) :
      get? key (insert entry.1 entry.2 map) =
        if decide (entry.1 = key) = true then some entry.2 else get? key map := by
    rw [get?_insert]
    simp only [decide_eq_true_eq]
  exact (view_foldl (get? key) Prod.snd hstep entries []).trans Option.or_none

end SortedMap

end Triptych
