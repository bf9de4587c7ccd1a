import Triptych.Project.Compile
import Triptych.Project.Rehearsal
import Triptych.Proofs.Project.Paths

/-!
# What a compile writes

A compiled document becomes one file or two, its `artifacts`. Here is what delivering documents does
to a tree of files, from one write up to a whole run:

* `ensures_write`, `ensures_createDirectories`: a write changes one file, and making directories
  changes none;
* `ensures_settle`: settling a job changes at most its own artifacts, and if the job does not count
  as failed they are all there afterwards (the step);
* `ensures_settleAll`: after a run without failures the artifacts of all jobs are there, if no two
  of them have the same address (the run). The last condition is what keeps a later job from
  changing what an earlier one wrote;
* `ensures_artifacts`: so are those of all documents after a compile that succeeds.

Statements about a run have the form `Ensures action scene post`: `post` holds of what `action`
returns when it is run in `scene`, and of the scene that it leaves.
-/

namespace Triptych.Project

/-! ### Runs in memory -/

/-- What an action returns when it is run in a scene, and the scene that it leaves. -/
def Ensures {α : Type} (action : Rehearsal α) (scene : Scene) (post : α → Scene → Prop) : Prop :=
  post (action.run scene).1 (action.run scene).2

section Ensures

variable {α β ε : Type} {scene : Scene}

/-- A run that ensures something ensures what follows from it. -/
theorem Ensures.mono {action : Rehearsal α} {post post' : α → Scene → Prop}
    (h : Ensures action scene post) (hpost : ∀ a scene', post a scene' → post' a scene') :
    Ensures action scene post' :=
  hpost _ _ h

/-- A run that does nothing, and two runs one after the other. -/
theorem ensures_pure {a : α} {post : α → Scene → Prop} (h : post a scene) :
    Ensures (pure a) scene post :=
  h

theorem ensures_bind {action : Rehearsal α} {next : α → Rehearsal β} {post : β → Scene → Prop}
    (h : Ensures action scene fun a scene' => Ensures (next a) scene' post) :
    Ensures (action >>= next) scene post :=
  h

/-- An action that may fail goes on only if it does not. -/
theorem ensures_run_bind {action : ExceptT ε Rehearsal α} {next : α → ExceptT ε Rehearsal β}
    {post : Except ε β → Scene → Prop}
    (h : Ensures action.run scene fun result scene' =>
      (∀ error, result = .error error → post (.error error) scene') ∧
        ∀ a, result = .ok a → Ensures (next a).run scene' post) :
    Ensures (action >>= next).run scene post := by
  rw [ExceptT.run_bind]
  apply ensures_bind
  refine h.mono ?_
  rintro (error | a) scene' ⟨herror, hok⟩
  · exact ensures_pure (herror error rfl)
  · exact hok a rfl

end Ensures

/-! ### Files -/

namespace FileTree

/-- What is read of a file depends on the files alone. -/
theorem textAt?_congr {tree tree' : FileTree} (h : tree'.files = tree.files) (address : Address) :
    tree'.textAt? address = tree.textAt? address := by
  unfold textAt?
  rw [h]

/-- Entries with an address get a text, and the others stay. -/
theorem find?_replace (entries : List (Address × String)) (address other : Address)
    (text : String) :
    ((entries.map fun entry => if entry.1 = address then (address, text) else entry).find?
      fun entry => entry.1 == other) =
      if other = address then
        (entries.find? fun entry => entry.1 == other).map fun _ => (address, text)
      else entries.find? fun entry => entry.1 == other := by
  induction entries with
  | nil => simp
  | cons entry entries ih =>
    rw [List.map_cons]
    by_cases hentry : entry.1 = address
    · by_cases hother : other = address
      · simp [hentry, hother]
      · rw [if_pos hentry, List.find?_cons_of_neg (by simpa using Ne.symm hother),
          List.find?_cons_of_neg (by simpa [hentry] using Ne.symm hother), ih]
    · rw [if_neg hentry, List.find?_cons, List.find?_cons, ih]
      by_cases hfound : entry.1 = other
      · have hother : other ≠ address := fun heq => hentry (hfound.trans heq)
        simp [hfound, hother]
      · rw [beq_eq_false_iff_ne.2 hfound]

/-- **What `setText` does**: the address has the text, and all others have what they had. -/
theorem textAt?_setText (tree : FileTree) (address other : Address) (text : String) :
    (tree.setText address text).textAt? other = if other = address then some text
      else tree.textAt? other := by
  unfold setText
  split
  next hsome =>
    -- The address has an entry, which is replaced where it stands.
    unfold textAt? at hsome ⊢
    rw [find?_replace]
    split
    next heq =>
      subst heq
      rw [Option.isSome_map] at hsome
      obtain ⟨entry, hentry⟩ := Option.isSome_iff_exists.1 hsome
      rw [hentry]
      rfl
    next => rfl
  next hnone =>
    -- The address has none, so the new entry is put behind all others.
    unfold textAt? at hnone ⊢
    rw [Option.isSome_map, Bool.not_eq_true, Option.isSome_eq_false_iff,
      Option.isNone_iff_eq_none] at hnone
    rw [List.find?_append]
    split
    next heq =>
      subst heq
      simp [hnone]
    next hne =>
      rw [List.find?_cons_of_neg (by simpa using Ne.symm hne), List.find?_nil, Option.or_none]

/-- What a write does. -/
theorem textAt?_of_write {tree tree' : FileTree} {path : Path} {text : String}
    (h : tree.write path text = .ok tree') :
    tree'.textAt? path.address = some text ∧
      ∀ address, address ≠ path.address → tree'.textAt? address = tree.textAt? address := by
  unfold write at h
  cases hlocate : tree.locate path with
  | error error =>
    rw [hlocate] at h
    contradiction
  | ok found =>
    rw [hlocate] at h
    obtain rfl := address_of_locate hlocate
    -- Only a directory at the address stands in the way.
    change (if tree.kindAt? path.address = some .directory then throw FileError.isADirectory
      else pure (tree.setText path.address text) : Except FileError FileTree) = .ok tree' at h
    split at h
    · contradiction
    · obtain rfl := Except.ok.inj h
      constructor
      · rw [textAt?_setText, if_pos rfl]
      · intro address hne
        rw [textAt?_setText, if_neg hne]

/-- A new directory is no file. -/
theorem files_of_makeDirectory {tree tree' : FileTree} {path : Path}
    (h : tree.makeDirectory path = .ok tree') :
    tree'.files = tree.files := by
  unfold makeDirectory at h
  cases hlocate : tree.locateNew path with
  | error error =>
    rw [hlocate] at h
    contradiction
  | ok found =>
    rw [hlocate] at h
    change (if (tree.kindAt? found).isSome then throw FileError.alreadyExists
      else pure { tree with directories := tree.directories ++ [found] } :
        Except FileError FileTree) = .ok tree' at h
    split at h
    · contradiction
    · obtain rfl := Except.ok.inj h
      rfl

end FileTree

/-- **Apart from some addresses** the trees of two scenes hold the same texts. -/
def AgreeOutside (addresses : List Address) (scene scene' : Scene) : Prop :=
  ∀ address ∉ addresses, scene'.tree.textAt? address = scene.tree.textAt? address

/-- Agreement passes on from scene to scene, and holds outside of more addresses if it holds outside
of fewer. -/
theorem AgreeOutside.trans {addresses : List Address} {scene mid scene' : Scene}
    (h : AgreeOutside addresses scene mid) (h' : AgreeOutside addresses mid scene') :
    AgreeOutside addresses scene scene' := by
  intro address hout
  rw [h' address hout, h address hout]

theorem AgreeOutside.mono {addresses more : List Address} {scene scene' : Scene}
    (h : AgreeOutside addresses scene scene') (hsub : addresses ⊆ more) :
    AgreeOutside more scene scene' := by
  intro address hout
  exact h address fun hin => hout (hsub hin)

/-- Scenes with the same files agree everywhere. -/
theorem agreeOutside_of_files {scene scene' : Scene} (h : scene'.tree.files = scene.tree.files)
    (addresses : List Address) : AgreeOutside addresses scene scene' := by
  intro address _
  exact FileTree.textAt?_congr h address

/-! ### One action -/

section Actions

variable {scene : Scene}

/-- A change of the tree that may fail, by its two outcomes. -/
theorem ensures_change {edit : FileTree → Except FileError FileTree}
    {post : Except FileError Unit → Scene → Prop}
    (herror : ∀ error, edit scene.tree = .error error → post (.error error) scene)
    (hok : ∀ tree, edit scene.tree = .ok tree → post (.ok ()) { scene with tree }) :
    Ensures (Rehearsal.change edit) scene post := by
  unfold Ensures
  cases hedit : edit scene.tree with
  | error error =>
    have hrun : (Rehearsal.change edit).run scene = (.error error, scene) := by
      simp only [Rehearsal.change, StateT.run_bind, StateT.run_get, pure_bind, hedit]
      rfl
    rw [hrun]
    exact herror error hedit
  | ok tree =>
    have hrun : (Rehearsal.change edit).run scene = (.ok (), { scene with tree }) := by
      simp only [Rehearsal.change, StateT.run_bind, StateT.run_get, pure_bind, hedit]
      rfl
    rw [hrun]
    exact hok tree hedit

/-- **What each operation of the rehearsal ensures**: reading changes nothing. -/
theorem ensures_read (path : Path) :
    Ensures (FileStore.read path) scene fun result scene' => result = scene.tree.read path ∧
      scene' = scene :=
  ⟨rfl, rfl⟩

theorem ensures_kind? (path : Path) :
    Ensures (FileStore.kind? path) scene fun _ scene' => scene' = scene :=
  rfl

/-- A line that is printed changes no file. -/
theorem ensures_printLine (stream : Stream) (line : String) :
    Ensures (Console.printLine stream line) scene fun _ scene' => scene'.tree = scene.tree :=
  rfl

/-- Writing changes one file, which then holds the text. -/
theorem ensures_write (path : Path) (text : String) :
    Ensures (FileStore.write path text) scene fun result scene' =>
      AgreeOutside [path.address] scene scene' ∧
        (result = .ok () → scene'.tree.textAt? path.address = some text) := by
  refine ensures_change ?_ ?_
  · intro error _
    exact ⟨agreeOutside_of_files rfl _, by simp⟩
  · intro tree htree
    obtain ⟨hself, hothers⟩ := FileTree.textAt?_of_write htree
    refine ⟨?_, fun _ => hself⟩
    intro address hout
    exact hothers address (by simpa using hout)

/-- Making directories changes no file, however deep they are. -/
theorem ensures_makeDirectory (path : Path) :
    Ensures (FileStore.makeDirectory path) scene fun _ scene' => scene'.tree.files =
      scene.tree.files := by
  refine ensures_change ?_ ?_
  · intro error _
    rfl
  · intro tree htree
    exact FileTree.files_of_makeDirectory htree

theorem ensures_ensureDirectory (path : Path) :
    Ensures (ensureDirectory path) scene fun _ scene' => scene'.tree.files = scene.tree.files := by
  unfold ensureDirectory
  apply ensures_bind
  refine (ensures_makeDirectory path).mono ?_
  intro result scene' hfiles
  split
  · apply ensures_bind
    refine (ensures_kind? path).mono ?_
    rintro kind _ rfl
    split
    · exact ensures_pure hfiles
    · exact ensures_pure hfiles
  · exact ensures_pure hfiles

theorem ensures_ensureNested (paths : List Path) :
    Ensures (ensureNested paths) scene fun _ scene' => scene'.tree.files = scene.tree.files := by
  induction paths generalizing scene with
  | nil => exact ensures_pure rfl
  | cons path outer ih =>
    unfold ensureNested
    apply ensures_bind
    refine (ensures_ensureDirectory path).mono ?_
    intro result mid hmid
    -- After each attempt the files are those of the scene before it, whether it succeeded or not.
    split
    · apply ensures_bind
      refine ih.mono ?_
      intro result' mid' hmid'
      split
      · refine (ensures_ensureDirectory path).mono ?_
        intro _ scene' hfiles
        rw [hfiles, hmid', hmid]
      · exact ensures_pure (hmid'.trans hmid)
    · exact ensures_pure hmid

/-- Making directories changes no file. -/
theorem ensures_createDirectories (path : Path) :
    Ensures (createDirectories path) scene fun _ scene' => scene'.tree.files = scene.tree.files :=
  ensures_ensureNested _

end Actions

/-! ### One document -/

/-- The files that a compiled document becomes, each with its text. -/
def artifacts (outDir document : Path) (output : Output) : List (Address × String) :=
  ((resultPaths outDir document).1.address, output.code) ::
    (output.style.map fun style => ((resultPaths outDir document).2.address, style)).toList

/-- The files are there, with their texts. -/
def Holds (scene : Scene) (files : List (Address × String)) : Prop :=
  ∀ file ∈ files, scene.tree.textAt? file.1 = some file.2

/-- Files go on holding their texts where nothing of them is touched. -/
theorem Holds.of_agreeOutside {scene scene' : Scene} {files : List (Address × String)}
    {addresses : List Address} (h : Holds scene files)
    (hagree : AgreeOutside addresses scene scene') (hout : ∀ file ∈ files, file.1 ∉ addresses) :
    Holds scene' files := by
  intro file hfile
  rw [hagree file.1 (hout file hfile)]
  exact h file hfile

/-- **Writing an output touches its artifacts only, and then they hold it**, if no two of them are
one file. -/
theorem ensures_writeOutput (scene : Scene) (outDir document : Path) (output : Output) :
    Ensures (writeOutput outDir document output).run scene fun result scene' =>
      AgreeOutside ((artifacts outDir document output).map Prod.fst) scene scene' ∧
        ((∃ written, result = .ok written) →
        ((artifacts outDir document output).map Prod.fst).Nodup →
          Holds scene' (artifacts outDir document output)) := by
  unfold writeOutput artifacts
  generalize resultPaths outDir document = paths
  obtain ⟨codePath, stylePath⟩ := paths
  dsimp only
  refine ensures_run_bind ((ensures_createDirectories codePath.parent).mono ?_)
  intro result made hmade
  have hmade := agreeOutside_of_files hmade
  refine ⟨fun error _ => ⟨hmade _, by simp⟩, fun _ _ => ?_⟩
  refine ensures_run_bind ((ensures_write codePath output.code).mono ?_)
  rintro result coded ⟨hcoded, hcode⟩
  have hcoded' := (hmade [codePath.address]).trans hcoded
  cases output.style with
  | none =>
    refine ⟨fun error _ => ⟨hcoded', by simp⟩, fun _ hresult =>
      ensures_pure ⟨hcoded', fun _ _ => ?_⟩⟩
    intro file hfile
    obtain rfl := List.mem_singleton.1 hfile
    exact hcode hresult
  | some style =>
    have hsub : [codePath.address] ⊆ [codePath.address, stylePath.address] := by simp
    refine ⟨fun error _ => ⟨hcoded'.mono hsub, by simp⟩, fun _ hresult => ?_⟩
    refine ensures_run_bind ((ensures_write stylePath style).mono ?_)
    rintro result' styled ⟨hstyled, hstyle⟩
    have hall : AgreeOutside [codePath.address, stylePath.address] scene styled :=
      (hcoded'.mono hsub).trans (hstyled.mono (by simp))
    refine ⟨fun error _ => ⟨hall, by simp⟩, fun _ hresult' =>
      ensures_pure ⟨hall, fun _ hnodup => ?_⟩⟩
    -- The stylesheet is written last, and elsewhere.
    have hne : codePath.address ≠ stylePath.address := by simpa using hnodup
    intro file hfile
    rcases List.mem_cons.1 hfile with rfl | hfile
    · rw [hstyled codePath.address (by simpa using hne)]
      exact hcode hresult
    · obtain rfl := List.mem_singleton.1 hfile
      exact hstyle hresult'

/-- Delivering to a directory is writing the output. -/
theorem ensures_deliver (scene : Scene) (outDir document : Path) (output : Output) :
    Ensures (deliver (.directory outDir) document output) scene fun result scene' =>
      AgreeOutside ((artifacts outDir document output).map Prod.fst) scene scene' ∧
        (result = .ok () → ((artifacts outDir document output).map Prod.fst).Nodup →
          Holds scene' (artifacts outDir document output)) := by
  unfold deliver
  apply ensures_bind
  refine (ensures_writeOutput scene outDir document output).mono ?_
  rintro (error | written) scene' ⟨hagree, hholds⟩
  · exact ensures_pure ⟨hagree, by simp⟩
  · refine ensures_bind ((ensures_printLine _ _).mono fun _ printed hprinted => ensures_pure ?_)
    unfold AgreeOutside Holds at *
    rw [hprinted]
    exact ⟨hagree, fun _ => hholds ⟨written, rfl⟩⟩

/-! ### All documents -/

/-- The files that a document is to become. There are none if it does not compile. -/
def artifactsOf (outDir root file : Path) : Except DocumentError Output → List (Address × String)
  | .ok output => artifacts outDir (Path.relativeTo root file) output
  | .error _ => []

/-- The files that a finished job is to become. -/
def FinishedJob.artifacts (outDir root : Path) (job : FinishedJob) : List (Address × String) :=
  artifactsOf outDir root job.file job.result

variable {outDir root : Path} {scene : Scene}

/-- **Settling one job** changes at most its own artifacts. If it does not count as a failure, they
are there afterwards. -/
theorem ensures_settle {job : FinishedJob}
    (hnodup : ((job.artifacts outDir root).map Prod.fst).Nodup) (tally : Tally) :
    Ensures (settle (.directory outDir) root tally job) scene fun tally' scene' =>
      AgreeOutside ((job.artifacts outDir root).map Prod.fst) scene scene' ∧
        tally.failed ≤ tally'.failed ∧
        (tally'.failed = tally.failed → (∃ output, job.result = .ok output) ∧
          Holds scene' (job.artifacts outDir root)) := by
  -- A job that counts as a failure has nothing more to show, and the line about it changes no file.
  have hfailure {mid : Scene} (line : String)
    (hagree : AgreeOutside ((job.artifacts outDir root).map Prod.fst) scene mid) :
      Ensures (do
        Console.printLine .errors line
        return { tally with failed := tally.failed + 1 }) mid fun tally' scene' =>
      AgreeOutside ((job.artifacts outDir root).map Prod.fst) scene scene' ∧
        tally.failed ≤ tally'.failed ∧
        (tally'.failed = tally.failed →
          (∃ output, job.result = .ok output) ∧ Holds scene' (job.artifacts outDir root)) := by
    refine ensures_bind ((ensures_printLine _ _).mono ?_)
    intro _ printed hprinted
    refine ensures_pure ⟨hagree.trans (agreeOutside_of_files (congrArg FileTree.files hprinted) _),
      Nat.le_succ _, ?_⟩
    intro hsame
    exact absurd hsame (Nat.succ_ne_self _)
  unfold settle FinishedJob.artifacts at *
  cases hresult : job.result with
  | error error =>
    rw [hresult] at hfailure
    exact ensures_bind (ensures_pure (hfailure _ (agreeOutside_of_files rfl _)))
  | ok output =>
    rw [hresult] at hnodup hfailure
    refine ensures_bind ((ensures_deliver scene outDir _ output).mono ?_)
    rintro (error | ⟨⟩) delivered ⟨hagree, hholds⟩
    · exact hfailure _ hagree
    · exact ensures_pure ⟨hagree, Nat.le_refl _, fun _ => ⟨⟨output, rfl⟩, hholds rfl hnodup⟩⟩

/-- **Settling jobs one after the other** changes at most their artifacts. If none counts as a
failure and no two artifacts have the same address, all of them are there afterwards. -/
theorem ensures_foldlM_settle {jobs : List FinishedJob}
    (hnodup : ((jobs.flatMap (FinishedJob.artifacts outDir root)).map Prod.fst).Nodup)
    (tally : Tally) :
    Ensures (jobs.foldlM (settle (.directory outDir) root) tally) scene fun tally' scene' =>
      AgreeOutside ((jobs.flatMap (FinishedJob.artifacts outDir root)).map Prod.fst) scene scene' ∧
        tally.failed ≤ tally'.failed ∧
        (tally'.failed = tally.failed →
          ∀ job ∈ jobs, (∃ output, job.result = .ok output) ∧
            Holds scene' (job.artifacts outDir root)) := by
  induction jobs generalizing scene tally with
  | nil => exact ensures_pure ⟨agreeOutside_of_files rfl _, Nat.le_refl _, by simp⟩
  | cons job jobs ih =>
    rw [List.flatMap_cons, List.map_append] at hnodup ⊢
    obtain ⟨hjob, hjobs, hdisjoint⟩ := List.nodup_append.1 hnodup
    rw [List.foldlM_cons]
    apply ensures_bind
    refine (ensures_settle hjob tally).mono ?_
    rintro tally₁ mid ⟨hagree, hle, hsettled⟩
    refine (ih hjobs tally₁).mono ?_
    rintro tally₂ scene' ⟨hagree', hle', hsettled'⟩
    refine ⟨?_, Nat.le_trans hle hle', ?_⟩
    · exact (hagree.mono (List.subset_append_left _ _)).trans
        (hagree'.mono (List.subset_append_right _ _))
    · intro hsame
      -- The number of failures never falls, so it was the same after the first job.
      have hsame₁ : tally₁.failed = tally.failed := by omega
      have hsame₂ : tally₂.failed = tally₁.failed := by omega
      obtain ⟨hok, hholds⟩ := hsettled hsame₁
      refine List.forall_mem_cons.2 ⟨⟨hok, hholds.of_agreeOutside hagree' ?_⟩, hsettled' hsame₂⟩
      intro file hfile hlater
      exact hdisjoint file.1 (List.mem_map_of_mem hfile) file.1 hlater rfl

/-- **Settling all jobs**, in the order of their documents. -/
theorem ensures_settleAll {finished : List FinishedJob}
    (hnodup : ((finished.flatMap (FinishedJob.artifacts outDir root)).map Prod.fst).Nodup) :
    Ensures (settleAll (.directory outDir) root finished) scene fun tally scene' =>
      tally.failed = 0 →
        ∀ job ∈ finished, (∃ output, job.result = .ok output) ∧
          Holds scene' (job.artifacts outDir root) := by
  have hperm : (inDocumentOrder finished).Perm finished := List.mergeSort_perm _ _
  have hnodup' :
      (((inDocumentOrder finished).flatMap (FinishedJob.artifacts outDir root)).map
      Prod.fst).Nodup :=
    ((hperm.flatMap_right _).map _).nodup_iff.2 hnodup
  refine (ensures_foldlM_settle hnodup' {}).mono ?_
  rintro tally scene' ⟨-, -, hsettled⟩ hfailed job hjob
  exact hsettled hfailed job (hperm.mem_iff.2 hjob)

/-! ### A whole compile -/

/-- What compiling a file of a tree comes to. -/
def compiled (pipeline : Pipeline) (tree : FileTree) (file : Path) : Except DocumentError Output :=
  match tree.read file with
  | .error error => .error (.file error)
  | .ok source => (pipeline.compile source file.text).result.mapError (.compile file source)

/-- A job with what its document comes to in a tree. -/
def Job.finished (pipeline : Pipeline) (tree : FileTree) (job : Job) : FinishedJob :=
  { job with result := compiled pipeline tree job.file }

/-- A run that cannot fail is lifted into one that could. -/
theorem ensures_lift {α ε : Type} {action : Rehearsal α} {post : Except ε α → Scene → Prop}
    (h : Ensures action scene fun a scene' => post (.ok a) scene') :
    Ensures (ExceptT.lift action : ExceptT ε Rehearsal α).run scene post :=
  h

/-- Doing a job changes nothing. -/
theorem ensures_job (pipeline : Pipeline) (job : Job) :
    Ensures (job.run pipeline) scene fun done scene' =>
      done = job.finished pipeline scene.tree ∧ scene' = scene := by
  have hfile : Ensures (compileFile pipeline job.file) scene fun result scene' =>
      result = compiled pipeline scene.tree job.file ∧ scene' = scene := by
    unfold compileFile compiled
    refine ensures_bind ((ensures_read job.file).mono ?_)
    rintro result scene' ⟨rfl, rfl⟩
    cases scene'.tree.read job.file with
    | error error => exact ensures_pure ⟨rfl, rfl⟩
    | ok source => exact ensures_pure ⟨rfl, rfl⟩
  unfold Job.run
  refine ensures_bind (hfile.mono ?_)
  rintro result scene' ⟨rfl, rfl⟩
  exact ensures_pure ⟨rfl, rfl⟩

/-- Doing jobs changes nothing, so the order in which they are done does not matter. -/
theorem ensures_mapM_job (pipeline : Pipeline) (jobs : List Job) :
    Ensures (jobs.mapM (Job.run pipeline)) scene fun finished scene' =>
      finished = jobs.map (Job.finished pipeline scene.tree) ∧ scene' = scene := by
  induction jobs with
  | nil => exact ensures_pure ⟨rfl, rfl⟩
  | cons job jobs ih =>
    rw [List.mapM_cons]
    refine ensures_bind ((ensures_job pipeline job).mono ?_)
    rintro done mid ⟨rfl, rfl⟩
    refine ensures_bind (ih.mono ?_)
    rintro finished scene' ⟨rfl, rfl⟩
    exact ensures_pure ⟨rfl, rfl⟩

/-- What is said on the console is in no file. -/
theorem ensures_sayAll (lines : List String) :
    Ensures (sayAll lines).run scene fun result scene' => result = .ok () ∧
      scene'.tree = scene.tree := by
  induction lines generalizing scene with
  | nil => exact ensures_pure ⟨rfl, rfl⟩
  | cons line lines ih =>
    refine ensures_run_bind (ensures_lift ((ensures_printLine .output line).mono ?_))
    intro _ printed hprinted
    refine ⟨by simp, fun _ _ => ih.mono ?_⟩
    rintro result scene' ⟨rfl, htree⟩
    exact ⟨rfl, htree.trans hprinted⟩

theorem ensures_conclude (destination : Destination) (tally : Tally) :
    Ensures (conclude destination tally).run scene fun result scene' =>
      scene'.tree = scene.tree ∧ (result = .ok () ↔ tally.failed = 0) := by
  unfold conclude
  refine ensures_run_bind ((ensures_sayAll _).mono ?_)
  rintro result scene' ⟨rfl, htree⟩
  refine ⟨by simp, fun _ _ => ?_⟩
  split
  next hfailed => exact ensures_pure ⟨htree, by simpa using hfailed⟩
  next hfailed => exact ensures_pure ⟨htree, by simpa using hfailed⟩

/-- There is a job for each file, in order. -/
theorem map_file_jobsFor (files : List Path) : (jobsFor files).map Job.file = files := by
  unfold jobsFor
  rw [List.map_map]
  exact List.zipIdx_map_fst 0 files

/-- Jobs in the order in which they were numbered need no sorting. -/
theorem inDocumentOrder_of_jobsFor {finished : List FinishedJob} {files : List Path}
    (h : finished.map FinishedJob.toJob = jobsFor files) : inDocumentOrder finished = finished := by
  have hordered : (jobsFor files).Pairwise fun a b => decide (a.index ≤ b.index) = true := by
    unfold jobsFor
    rw [List.pairwise_map, List.pairwise_iff_getElem]
    intro i j _ _ hlt
    simp only [List.getElem_zipIdx, decide_eq_true_eq]
    omega
  rw [← h, List.pairwise_map] at hordered
  exact List.mergeSort_of_pairwise hordered

/-- **A compile comes down to settling its jobs**: nothing changes before, and after it no file
does. -/
theorem ensures_compileDocuments {schedule : List Job → List Job} {pipeline : Pipeline}
    {destination : Destination}
    {files : List Path} {post : Except CommandError Unit → Scene → Prop}
    (h : Ensures (settleAll destination root
      ((schedule (jobsFor files)).map (Job.finished pipeline scene.tree))) scene
      fun tally settled => ∀ result scene', scene'.tree = settled.tree →
        (result = .ok () ↔ tally.failed = 0) →
        post result scene') :
    Ensures (compileDocuments schedule pipeline destination root files).run scene post := by
  unfold compileDocuments
  refine ensures_run_bind (ensures_lift ((ensures_mapM_job pipeline _).mono ?_))
  rintro finished mid ⟨rfl, rfl⟩
  refine ⟨by simp, fun _ hfinished => ?_⟩
  obtain rfl := Except.ok.inj hfinished
  refine ensures_run_bind (ensures_lift (h.mono ?_))
  intro tally settled hpost
  refine ⟨by simp, fun _ htally => (ensures_conclude destination _).mono ?_⟩
  obtain rfl := Except.ok.inj htally
  rintro result scene' ⟨htree, hresult⟩
  exact hpost result scene' htree hresult

/-- **A compile that succeeds** leaves the artifacts of all its documents, if no two of them have
the same address. -/
theorem ensures_artifacts {schedule : List Job → List Job}
    (hschedule : ∀ jobs, (schedule jobs).Perm jobs)
    {pipeline : Pipeline} {files : List Path}
    (hnodup : ((files.flatMap fun file => artifactsOf outDir root file
      (compiled pipeline scene.tree file)).map
      Prod.fst).Nodup) :
    Ensures (compileDocuments schedule pipeline (.directory outDir) root files).run scene
      fun result scene' =>
      result = .ok () → ∀ file ∈ files, ∃ output, compiled pipeline scene.tree file = .ok output ∧
        Holds scene' (artifacts outDir (Path.relativeTo root file) output) := by
  have hperm := hschedule (jobsFor files)
  have hnodup' : (((schedule (jobsFor files)).map (Job.finished pipeline scene.tree)).flatMap
      (FinishedJob.artifacts outDir root) |>.map Prod.fst).Nodup := by
    rw [List.flatMap_map]
    refine ((hperm.flatMap_right _).map _).nodup_iff.2 ?_
    rw [← map_file_jobsFor files, List.flatMap_map] at hnodup
    exact hnodup
  apply ensures_compileDocuments
  refine (ensures_settleAll hnodup').mono ?_
  intro tally settled hsettled result scene' htree hresult hok file hfile
  -- Each document has its job, wherever the schedule put it.
  rw [← map_file_jobsFor files] at hfile
  obtain ⟨job, hjob, rfl⟩ := List.mem_map.1 hfile
  obtain ⟨⟨output, houtput⟩, hholds⟩ :=
    hsettled (hresult.1 hok) _ (List.mem_map_of_mem (hperm.mem_iff.2 hjob))
  refine ⟨output, houtput, ?_⟩
  unfold FinishedJob.artifacts at hholds
  rw [houtput] at hholds
  unfold Holds at *
  rw [htree]
  exact hholds

end Triptych.Project
