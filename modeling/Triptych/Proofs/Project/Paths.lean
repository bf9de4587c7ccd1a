import Triptych.Project.Command
import Triptych.Project.FileTree
import Triptych.Proofs.Text.Search
import Mathlib.Data.List.Basic

/-!
# What paths lead to

A path is made of segments, of which some lead nowhere and one leads upwards; what it leads to is an
address. A tree of files can be in the way, but it has no say in where a path leads: if a path can
be followed, it is to `Path.address` (`address_of_locate`).

Below a directory a file has a path that ends in names only (`IsName`). On such a path the
operations on paths are what they say:

* `relativeTo_join`: seen from the directory, it is those names;
* `withExtension_stem`: another extension changes what is behind the last dot of the last name;
* `address_join`: it leads to where the directory is, and from there along the names.
-/

namespace Triptych.Project

open Text

namespace Path

/-- A name that a file or a directory can have. -/
structure IsName (segment : String) : Prop where
  notIdle : isIdle segment = false
  notUp : segment ≠ ".."

instance (segment : String) : Decidable (IsName segment) :=
  decidable_of_iff (isIdle segment = false ∧ segment ≠ "..") ⟨fun h => ⟨h.1, h.2⟩, fun h =>
    ⟨h.notIdle, h.notUp⟩⟩

/-! ### The extension of a name -/

/-- A name is split at its last dot. -/
theorem splitName_append {stem ending : List Char} (hstem : stem ≠ []) (hending : '.' ∉ ending) :
    splitName (stem ++ '.' :: ending) = (stem, some ending) := by
  have hrun : ∀ c ∈ ending.reverse, (c != '.') = true := by
    intro c hc
    rw [bne_iff_ne]
    rintro rfl
    exact hending (List.mem_reverse.1 hc)
  have hstops : Stops (· != '.') ('.' :: stem.reverse) := stops_cons (by simp) _
  have hreverse : (stem ++ '.' :: ending).reverse = ending.reverse ++ '.' :: stem.reverse := by simp
  unfold splitName
  rw [hreverse]
  simp only [dropWhile_append_of_stops hrun hstops, takeWhile_append_of_stops hrun hstops]
  rw [if_neg (by simpa using hstem), List.reverse_reverse, List.reverse_reverse]

/-- An extension is behind the last dot, and something is before that dot. -/
theorem exists_stem_of_splitName {name ending : List Char} (h : (splitName name).2 = some ending) :
    ∃ stem, stem ≠ [] ∧ '.' ∉ ending ∧ name = stem ++ '.' :: ending := by
  unfold splitName at h
  simp only at h
  -- The name is read backwards: the last dot of the name is the first one then.
  split at h
  next dot stem hdrop =>
    split at h
    · contradiction
    next hstem =>
      obtain rfl := Option.some.inj h
      -- What stops the search is the dot.
      have hdot : dot = '.' := by
        have hhead := List.head_dropWhile_not (· != '.') (l := name.reverse) (by simp [hdrop])
        simpa [hdrop] using hhead
      refine ⟨stem.reverse, by simpa using hstem, ?_, ?_⟩
      · intro hmem
        have hclass := of_mem_takeWhile (p := (· != '.')) (List.mem_reverse.1 hmem)
        simp at hclass
      · have hsplit := List.takeWhile_append_dropWhile (p := (· != '.')) (l := name.reverse)
        rw [hdrop, hdot] at hsplit
        calc name
            = name.reverse.reverse := (List.reverse_reverse name).symm
          _ = (name.reverse.takeWhile (· != '.') ++ '.' :: stem).reverse := by rw [hsplit]
          _ = stem.reverse ++ '.' :: (name.reverse.takeWhile (· != '.')).reverse := by simp
  · contradiction

/-! ### Segments -/

/-- A name at the end is kept. -/
theorem dropIdleEnd_append {name : String} (h : IsName name) (segments : List String) :
    dropIdleEnd (segments ++ [name]) = segments ++ [name] := by
  unfold dropIdleEnd
  rw [List.reverse_append, List.reverse_singleton, List.singleton_append, List.dropWhile_cons_of_neg
    (by simp [h.notIdle])]
  simp

/-- The file that a path with a name at its end names. -/
theorem fileName?_append {name : String} (h : IsName name) (absolute : Bool)
    (segments : List String) :
    fileName? ⟨absolute, segments ++ [name]⟩ = some name := by
  unfold fileName? names
  rw [List.filter_append, List.filter_cons_of_pos (by simp [h.notIdle])]
  simp [h.notUp]

/-- **Another extension** takes the place of the one that a name has. -/
theorem withExtension_stem {stem ending : String} (hstem : stem ≠ "")
    (hending : '.' ∉ ending.toList) (hname : IsName (stem ++ "." ++ ending)) (absolute : Bool)
    (segments : List String) (other : String) :
    withExtension ⟨absolute, segments ++ [stem ++ "." ++ ending]⟩ other =
      ⟨absolute, segments ++ [stem ++ "." ++ other]⟩ := by
  have hsplit : splitName (stem ++ "." ++ ending).toList = (stem.toList, some ending.toList) := by
    have htext : (stem ++ "." ++ ending).toList = stem.toList ++ '.' :: ending.toList := by
      simp [String.toList_append]
    rw [htext]
    exact splitName_append (by simpa using hstem) hending
  unfold withExtension
  rw [fileName?_append hname]
  dsimp only
  rw [hsplit, dropIdleEnd_append hname, List.dropLast_concat, String.ofList_toList]

/-- A name with an extension is a stem, a dot and the extension. -/
theorem exists_stem_of_extension? {path : Path} {extension : String}
    (h : path.extension? = some extension) :
    ∃ stem : String, stem ≠ "" ∧ '.' ∉ extension.toList ∧
      path.fileName? = some (stem ++ "." ++ extension) := by
  unfold extension? at h
  obtain ⟨name, hname, hending⟩ := Option.bind_eq_some_iff.1 h
  obtain ⟨ending, hsplit, rfl⟩ := Option.map_eq_some_iff.1 hending
  obtain ⟨stem, hstem, hdot, htext⟩ := exists_stem_of_splitName hsplit
  refine ⟨String.ofList stem, by simpa using hstem, by rwa [String.toList_ofList], ?_⟩
  rw [hname]
  apply congrArg some
  apply String.toList_inj.1
  simp [String.toList_append, htext]

/-! ### Seen from a directory -/

/-- Idle segments are passed over, and names are matched. -/
theorem segmentsAfter_idle {segment : String} (h : isIdle segment = true)
    (names segments : List String) :
    segmentsAfter names (segment :: segments) = segmentsAfter names segments := by
  cases names with
  | nil => rw [segmentsAfter, segmentsAfter, List.dropWhile_cons_of_pos h]
  | cons name names => rw [segmentsAfter, segmentsAfter, List.dropWhile_cons_of_pos h]

theorem segmentsAfter_name {segment : String} (h : ¬ isIdle segment = true)
    (names segments : List String) :
    segmentsAfter (segment :: names) (segment :: segments) = segmentsAfter names segments := by
  rw [segmentsAfter, List.dropWhile_cons_of_neg h]
  exact if_pos rfl

/-- What is behind the segments of a directory is behind its names. -/
theorem segmentsAfter_append (segments rest : List String) :
    segmentsAfter (segments.filter fun segment => !isIdle segment) (segments ++ rest) =
      segmentsAfter [] rest := by
  induction segments with
  | nil => rfl
  | cons segment segments ih =>
    by_cases hidle : isIdle segment = true
    · rw [List.filter_cons_of_neg (by simp [hidle]), List.cons_append, segmentsAfter_idle hidle, ih]
    · rw [List.filter_cons_of_pos (by simpa using hidle), List.cons_append,
        segmentsAfter_name hidle, ih]

/-- The separator at the end is idle. -/
theorem filter_dropFinalSeparator (segments : List String) :
    (dropFinalSeparator segments).filter (fun segment => !isIdle segment) =
      segments.filter fun segment => !isIdle segment := by
  unfold dropFinalSeparator
  split
  next hlast =>
    obtain ⟨init, rfl⟩ := List.getLast?_eq_some_iff.1 hlast
    rw [List.dropLast_concat, List.filter_append]
    simp [isIdle]
  next => rfl

/-- **Seen from a directory**, a path of names below it is those names. -/
theorem relativeTo_join {folders : List String} {name : String}
    (hfolders : ∀ folder ∈ folders, IsName folder) (hname : IsName name) (directory : Path) :
    relativeTo directory (directory.join ⟨false, folders ++ [name]⟩) =
      ⟨false, folders ++ [name]⟩ := by
  -- Names are no idle segments, so none is skipped at the front.
  have hstart : (folders ++ [name]).dropWhile isIdle = folders ++ [name] := by
    cases folders with
    | nil => simp [hname.notIdle]
    | cons folder folders =>
      rw [List.cons_append, List.dropWhile_cons_of_neg
        (by simp [(hfolders folder List.mem_cons_self).notIdle])]
  have hafter :
    segmentsAfter directory.names (dropFinalSeparator directory.segments ++ (folders ++ [name])) =
      some (folders ++ [name]) := by
    unfold names
    rw [← filter_dropFinalSeparator, segmentsAfter_append, segmentsAfter, hstart,
      dropIdleEnd_append hname]
  unfold relativeTo join
  simp only [Bool.false_eq_true, if_false, if_true, hafter]

/-! ### Where a path leads -/

/-- Where segments lead from an address. -/
def lead (address : Address) (segments : List String) : Address :=
  segments.foldl (fun address segment =>
    if isIdle segment then address else if segment = ".." then address.dropLast
      else address ++ [segment]) address

/-- Where a path leads. -/
def address (path : Path) : Address :=
  lead [] path.segments

/-- A path of two parts leads where the second leads from the end of the first. -/
theorem lead_append (start : Address) (segments more : List String) :
    lead start (segments ++ more) = lead (lead start segments) more :=
  List.foldl_append

/-- Names lead to where they say. -/
theorem lead_names {segments : List String} (h : ∀ segment ∈ segments, IsName segment)
    (start : Address) :
    lead start segments = start ++ segments := by
  induction segments generalizing start with
  | nil => simp [lead]
  | cons segment segments ih =>
    obtain ⟨hsegment, hsegments⟩ := List.forall_mem_cons.1 h
    calc lead start (segment :: segments)
        = lead (start ++ [segment]) segments := by
          unfold lead
          rw [List.foldl_cons, if_neg (by simp [hsegment.notIdle]), if_neg hsegment.notUp]
      _ = start ++ segment :: segments := by
        rw [ih hsegments, List.append_assoc, List.singleton_append]

/-- **Names below a directory** lead to where the directory is and on from there. -/
theorem address_join {segments : List String} (h : ∀ segment ∈ segments, IsName segment)
    (directory : Path) :
    (directory.join ⟨false, segments⟩).address =
      lead [] (dropFinalSeparator directory.segments) ++ segments := by
  unfold address join
  rw [if_neg Bool.false_ne_true, lead_append, lead_names h]

end Path

namespace FileTree

/-- **Where the tree is followed, it leads where the path says.** -/
theorem lead_of_step {start next : Address} {segment : String} (h : step start segment = .ok next) :
    next = Path.lead start [segment] := by
  unfold step at h
  show next = if Path.isIdle segment then start else if segment = ".." then start.dropLast
    else start ++ [segment]
  split at h
  -- The three kinds of segments: idle ones, the way up, and names.
  next hidle => rw [if_pos hidle, Except.ok.inj h]
  next hidle =>
    rw [if_neg hidle]
    split at h
    next hup => rw [if_pos hup, Except.ok.inj h]
    next hup =>
      rw [if_neg hup]
      split at h
      · contradiction
      · exact (Except.ok.inj h).symm

theorem lead_of_follow {tree : FileTree} {start found : Address} {segments : List String}
    (h : tree.follow start segments = .ok found) : found = Path.lead start segments := by
  induction segments generalizing start with
  | nil => exact (Except.ok.inj h).symm
  | cons segment segments ih =>
    rw [follow] at h
    split at h
    · contradiction
    · split at h
      · contradiction
      next next hstep =>
        calc found
            = Path.lead next segments := ih h
          _ = Path.lead (Path.lead start [segment]) segments := by rw [lead_of_step hstep]
          _ = Path.lead start (segment :: segments) :=
            (Path.lead_append start [segment] segments).symm

/-- **A path that can be followed is followed to its address.** -/
theorem address_of_locate {tree : FileTree} {path : Path} {found : Address}
    (h : tree.locate path = .ok found) :
    found = path.address := by
  unfold locate at h
  split at h
  · contradiction
  · exact lead_of_follow h

end FileTree

end Triptych.Project
