import Triptych.Pipeline.Config
import Triptych.Proofs.SortedMap

/-!
# The order of languages in a configuration

A configuration gives options for languages by name, and the names can be written in different ways:
`js` and `JS` are one language. What a configuration is read into keeps no order between its
entries, so an order should not matter to what comes of them. It does not as long as entries for one
language say the same, and otherwise it does:

* `exists_toSetup_of_ok`: of all entries for a language, the last counts;
* `exists_perm_optionsIn_iff`: each of them is last in some order, so the options that a language
  can get are all that are written for it;
* `toSetup_orderless_iff`: so the order matters exactly if entries for one language differ;
* `spellings_depend_on_order`: two spellings that differ.
-/

namespace Triptych

/-- The options that are written for a language, under any spelling of its name. -/
def optionsWritten (languages : List (String × Json)) (language : String) : List Json :=
  (languages.filter fun entry => languageKey entry.1 = languageKey language).map Prod.snd

/-- The options that a language gets from entries in an order. -/
def optionsIn (languages : List (String × Json)) (language : String) : Json :=
  (optionsWritten languages language).getLast?.getD .null

theorem mem_optionsWritten_iff {languages : List (String × Json)} {language : String}
    {options : Json} :
    options ∈ optionsWritten languages language ↔
      ∃ entry ∈ languages, languageKey entry.1 = languageKey language ∧ entry.2 = options := by
  unfold optionsWritten
  simp only [List.mem_map, List.mem_filter, decide_eq_true_eq, and_assoc]

/-- What is written for a language is the same in every order, apart from the order. -/
theorem optionsWritten_perm {languages order : List (String × Json)} (h : order.Perm languages)
    (language : String) :
    (optionsWritten order language).Perm (optionsWritten languages language) :=
  (h.filter _).map _

/-- An entry for a language that comes last decides. -/
theorem optionsIn_append_singleton (languages : List (String × Json)) {entry : String × Json}
    {language : String} (h : languageKey entry.1 = languageKey language) :
    optionsIn (languages ++ [entry]) language = entry.2 := by
  have hlast : [entry].filter (fun entry => languageKey entry.1 = languageKey language) = [entry] :=
    List.filter_cons_of_pos (by simpa using h)
  unfold optionsIn optionsWritten
  rw [List.filter_append, hlast, List.map_append, List.map_singleton, List.getLast?_concat]
  rfl

/-- **The options that a language can get**: in one order or another it gets each of those that are
written for it, and `null` if there are none. -/
theorem exists_perm_optionsIn_iff {languages : List (String × Json)} {language : String}
    {options : Json} :
    (∃ order, order.Perm languages ∧ optionsIn order language = options) ↔
      options ∈ optionsWritten languages language ∨ optionsWritten languages language = [] ∧
        options = .null := by
  constructor
  · -- In any order the last entry counts, which is one of those that are written.
    rintro ⟨order, horder, rfl⟩
    have hwritten := optionsWritten_perm horder language
    unfold optionsIn
    cases hlast : (optionsWritten order language).getLast? with
    | none =>
      rw [List.getLast?_eq_none_iff.1 hlast] at hwritten
      exact .inr ⟨hwritten.nil_eq.symm, rfl⟩
    | some options => exact .inl (hwritten.mem_iff.1 (List.mem_of_getLast? hlast))
  · rintro (hmem | ⟨hnone, rfl⟩)
    · -- The entry is put behind all others, and so it is the one that counts.
      obtain ⟨entry, hentry, hkey, rfl⟩ := mem_optionsWritten_iff.1 hmem
      obtain ⟨before, after, rfl⟩ := List.append_of_mem hentry
      refine ⟨before ++ after ++ [entry], ?_, optionsIn_append_singleton _ hkey⟩
      rw [List.append_assoc]
      exact (List.perm_append_singleton entry after).append_left before
    · refine ⟨languages, .refl _, ?_⟩
      unfold optionsIn
      rw [hnone]
      rfl

namespace PipelineSettings

/-- Looking a language up finds the last of its entries. -/
theorem get?_resolveLanguages (languages : List (String × Json)) (language : String) :
    (resolveLanguages languages).get? (languageKey language) =
      (optionsWritten languages language).getLast? := by
  unfold resolveLanguages optionsWritten
  rw [SortedMap.get?_ofEntries, List.filter_map, List.getLast?_map, List.getLast?_map,
    Option.map_map]
  rfl

/-- Whether options come out, and which error otherwise, depends on the plugins alone. -/
theorem toSetup_of_error {config : PipelineSettings} {error : CompileError}
    (h : resolvePlugins config.postProcessing.plugins = .error error) :
    config.toSetup = .error error := by
  unfold toSetup
  rw [h]
  rfl

theorem exists_toSetup_of_ok {config : PipelineSettings} {plugins : List StylesheetPlugin}
    (h : resolvePlugins config.postProcessing.plugins = .ok plugins) :
    ∃ setup, config.toSetup = .ok setup ∧ ∀ language, setup.optionsFor language =
      optionsIn config.languages language := by
  unfold toSetup
  rw [h]
  refine ⟨_, rfl, ?_⟩
  intro language
  show ((resolveLanguages config.languages).get? (languageKey language)).getD .null = _
  rw [get?_resolveLanguages]
  rfl

/-- **Two outcomes say the same**: the same error, or options with the same value for every
language. -/
def SameOptions : Except CompileError PipelineSetup → Except CompileError PipelineSetup → Prop
  | .error error, .error error' => error = error'
  | .ok setup, .ok setup' => ∀ language, setup.optionsFor language = setup'.optionsFor language
  | _, _ => False

/-- **When the order of languages does not matter.** Two orders of the languages of a configuration
always come to the same error or to the same options for every language, exactly if there is an
error or entries for one language, however its name is spelled, have the same options. -/
theorem toSetup_orderless_iff (config : PipelineSettings) :
    (∀ order order', order.Perm config.languages → order'.Perm config.languages →
      SameOptions { config with languages := order }.toSetup { config with languages :=
        order' }.toSetup) ↔
    (∃ error, config.toSetup = .error error) ∨
      ∀ entry ∈ config.languages, ∀ entry' ∈ config.languages,
        languageKey entry.1 = languageKey entry'.1 → entry.2 = entry'.2 := by
  cases hplugins : resolvePlugins config.postProcessing.plugins with
  | error error =>
    -- The plugins are looked for first, and languages have no say in that.
    have herror (languages : List (String × Json)) :
        { config with languages }.toSetup = .error error :=
      toSetup_of_error hplugins
    constructor
    · intro _
      exact .inl ⟨error, herror config.languages⟩
    · intro _ order order' _ _
      rw [herror order, herror order']
      rfl
  | ok plugins =>
    have hsetup (languages : List (String × Json)) :
        ∃ setup, { config with languages }.toSetup = .ok setup ∧
          ∀ language, setup.optionsFor language = optionsIn languages language :=
      exists_toSetup_of_ok hplugins
    constructor
    · intro hsame
      right
      intro entry hentry entry' hentry' hkey
      -- Each of the two entries is last in some order, and then its options are those of the
      -- language.
      obtain ⟨order, horder, hoptions⟩ := exists_perm_optionsIn_iff.2
        (.inl (mem_optionsWritten_iff.2 ⟨entry, hentry, hkey, rfl⟩))
      obtain ⟨order', horder', hoptions'⟩ := exists_perm_optionsIn_iff.2
        (.inl (mem_optionsWritten_iff.2 ⟨entry', hentry', rfl, rfl⟩))
      obtain ⟨setup, hok, hget⟩ := hsetup order
      obtain ⟨setup', hok', hget'⟩ := hsetup order'
      have hsame := hsame order order' horder horder'
      rw [hok, hok'] at hsame
      calc entry.2
          = setup.optionsFor entry'.1 := by rw [hget, hoptions]
        _ = setup'.optionsFor entry'.1 := hsame entry'.1
        _ = entry'.2 := by rw [hget', hoptions']
    · rintro (⟨error, herror⟩ | hsame)
      · obtain ⟨setup, hok, -⟩ := hsetup config.languages
        rw [show config.toSetup = .ok setup from hok] at herror
        contradiction
      · intro order order' horder horder'
        obtain ⟨setup, hok, hget⟩ := hsetup order
        obtain ⟨setup', hok', hget'⟩ := hsetup order'
        rw [hok, hok']
        intro language
        rw [hget, hget']
        -- Both are among what is written for the language, unless nothing is.
        rcases exists_perm_optionsIn_iff.1 ⟨order, horder, rfl⟩ with hmem | ⟨hnone, hnull⟩
        · rcases exists_perm_optionsIn_iff.1 ⟨order', horder', rfl⟩ with hmem' | ⟨hnone', -⟩
          · obtain ⟨entry, hentry, hkey, hoptions⟩ := mem_optionsWritten_iff.1 hmem
            obtain ⟨entry', hentry', hkey', hoptions'⟩ := mem_optionsWritten_iff.1 hmem'
            rw [← hoptions, ← hoptions']
            exact hsame entry hentry entry' hentry' (hkey.trans hkey'.symm)
          · rw [hnone'] at hmem
            contradiction
        · rcases exists_perm_optionsIn_iff.1 ⟨order', horder', rfl⟩ with hmem' | ⟨-, hnull'⟩
          · rw [hnone] at hmem'
            contradiction
          · rw [hnull, hnull']

/-- Options under two spellings of one name: in one the check is on, in the other it is off. -/
def twoSpellings : List (String × Json) :=
  [("js", .object [("check", .bool true)]), ("JS", .object [("check", .bool false)])]

/-- Whether the check is on depends on the order in which the two come. -/
theorem spellings_depend_on_order :
    twoSpellings.reverse.Perm twoSpellings ∧
      ∃ setup setup' : PipelineSetup,
        ({ languages := twoSpellings } : PipelineSettings).toSetup = .ok setup ∧
          ({ languages := twoSpellings.reverse } : PipelineSettings).toSetup = .ok setup' ∧
          setup.optionsFor "js" = .object [("check", .bool false)] ∧
          setup'.optionsFor "js" = .object [("check", .bool true)] := by
  have hplugins (languages : List (String × Json)) :
      resolvePlugins ({ languages } : PipelineSettings).postProcessing.plugins = .ok [] := rfl
  obtain ⟨setup, hok, hget⟩ := exists_toSetup_of_ok (hplugins twoSpellings)
  obtain ⟨setup', hok', hget'⟩ := exists_toSetup_of_ok (hplugins twoSpellings.reverse)
  refine ⟨List.reverse_perm _, setup, setup', hok, hok', ?_, ?_⟩
  · rw [hget]
    exact optionsIn_append_singleton [("js", .object [("check", .bool true)])] (by decide)
  · rw [hget']
    exact optionsIn_append_singleton [("JS", .object [("check", .bool false)])] rfl

end PipelineSettings

end Triptych
