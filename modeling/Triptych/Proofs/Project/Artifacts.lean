import Mathlib.Data.List.Nodup
import Triptych.Proofs.Document.Places
import Triptych.Proofs.Pipeline.Stages
import Triptych.Proofs.Project.Writing
import Triptych.Proofs.Script.Turns

/-!
# The files of different documents

A document `pages/App.weave` becomes `pages/App.js` and `pages/App.style.js`. Of two documents below
one directory the code files are different, and so are the style files. But the style file of one
can be the code file of the other, if that is its *twin*: the twin of `App.weave` is
`App.style.weave`, and its code is to go to `App.style.js` as well.

* `artifacts_apart`: that is the only way in which files of two documents meet;
* `artifacts_kept`: so a compile that succeeds leaves every artifact as it was written, unless a
  document with a stylesheet has its twin among the documents;
* `twin_overwrites`: if it has, one of the two is lost, and the compile succeeds all the same.
-/

namespace Triptych.Project

open Triptych.Project.Path

/-! ### Documents below a directory -/

/-- A tree as a computer keeps it: addresses are made of names, and there is one file at an
address. -/
structure FileTree.Sound (tree : FileTree) : Prop where
  names : ∀ entry ∈ tree.files, ∀ segment ∈ entry.1, IsName segment
  unique : (tree.files.map Prod.fst).Nodup

/-- **A document below a directory**: some folders lead to it, and its name is a stem, a dot and the
extension. -/
structure DocumentAt (directory : Path) (extension : String) (folders : List String) (stem : String)
    (file : Path) :
    Prop where
  file_eq : file = directory.join ⟨false, folders ++ [stem ++ "." ++ extension]⟩
  isName_folders : ∀ folder ∈ folders, IsName folder
  isName : IsName (stem ++ "." ++ extension)
  stem_ne : stem ≠ ""
  dot_notMem : '.' ∉ extension.toList

/-- The files below a directory are those whose addresses begin with that of the directory, which is
not a file. -/
theorem FileTree.filesBelow_of_kind? {tree : FileTree} {directory : Path}
    (h : tree.kind? directory = some .directory) :
    ∃ address, tree.textAt? address = none ∧
      tree.filesBelow directory = (tree.files.filter fun entry => address.isPrefixOf entry.1).map
        fun entry =>
        directory.join ⟨false, entry.1.drop address.length⟩ := by
  unfold kind? at h
  unfold filesBelow
  cases hlocate : tree.locate directory with
  | error error =>
    rw [hlocate] at h
    contradiction
  | ok address =>
    rw [hlocate] at h
    dsimp only at h ⊢
    refine ⟨address, ?_, ?_⟩
    · unfold kindAt? at h
      split at h
      · contradiction
      next hnone => simpa using hnone
    · rw [if_neg]
      rw [h]
      simp

/-- **Ways to files**: to each file below a directory leads a way of its own, which is made of
names. -/
theorem exists_ways {tree : FileTree} (hsound : tree.Sound) {directory : Path}
    (hdirectory : tree.kind? directory = some .directory) :
    ∃ ways : List (List String), tree.filesBelow directory =
      ways.map (fun way => directory.join ⟨false, way⟩) ∧
      ways.Nodup ∧ ∀ way ∈ ways, way ≠ [] ∧ ∀ segment ∈ way, IsName segment := by
  obtain ⟨address, hnone, hfiles⟩ := tree.filesBelow_of_kind? hdirectory
  -- A file below the directory has the address of the directory, and behind it the way to the file.
  have hsplit {entry : Address × String} (hentry : entry ∈ tree.files.filter fun entry =>
    address.isPrefixOf entry.1) :
      entry ∈ tree.files ∧ address ++ entry.1.drop address.length = entry.1 := by
    obtain ⟨hmem, hprefix⟩ := List.mem_filter.1 hentry
    exact ⟨hmem, List.prefix_iff_eq_append.1 (List.isPrefixOf_iff_prefix.1 hprefix)⟩
  refine ⟨(tree.files.filter fun entry => address.isPrefixOf entry.1).map fun entry =>
    entry.1.drop address.length, by rw [hfiles, List.map_map]; rfl, ?_, ?_⟩
  · -- Two files with one way would have one address.
    refine (hsound.unique.of_map.filter _).map_on ?_
    intro entry hentry entry' hentry' hsame
    obtain ⟨hmem, haddress⟩ := hsplit hentry
    obtain ⟨hmem', haddress'⟩ := hsplit hentry'
    refine List.inj_on_of_nodup_map hsound.unique hmem hmem' ?_
    rw [← haddress, ← haddress', hsame]
  · intro way hway
    obtain ⟨entry, hentry, rfl⟩ := List.mem_map.1 hway
    obtain ⟨hmem, haddress⟩ := hsplit hentry
    constructor
    · -- An empty way would lead to the directory itself, and that is no file.
      intro hempty
      rw [hempty, List.append_nil] at haddress
      unfold FileTree.textAt? at hnone
      rw [Option.map_eq_none_iff] at hnone
      exact List.find?_eq_none.1 hnone entry hmem (beq_iff_eq.2 haddress.symm)
    · intro segment hsegment
      exact hsound.names entry hmem segment (List.mem_of_mem_drop hsegment)

theorem join_inj {directory : Path} {names names' : List String}
    (h : directory.join ⟨false, names⟩ = directory.join ⟨false, names'⟩) : names = names' := by
  unfold Path.join at h
  simpa using h

/-- Documents below a directory are where their names say. -/
theorem exists_documentAt {tree : FileTree} (hsound : tree.Sound) {directory : Path}
    (hdirectory : tree.kind? directory = some .directory) {extension : String} {file : Path}
    (h : file ∈ documentsAmong extension (tree.filesBelow directory)) :
    ∃ folders stem, DocumentAt directory extension folders stem file := by
  obtain ⟨ways, hfiles, -, hways⟩ := exists_ways hsound hdirectory
  unfold documentsAmong at h
  rw [List.mem_mergeSort, List.mem_filter, hfiles, List.mem_map, decide_eq_true_eq] at h
  obtain ⟨⟨way, hway, rfl⟩, hextension⟩ := h
  obtain ⟨hne, hnames⟩ := hways way hway
  -- The last name of the way is that of the file; the others are folders.
  obtain ⟨folders, name, rfl⟩ : ∃ folders name, way = folders ++ [name] :=
    ⟨way.dropLast, way.getLast hne, (List.dropLast_append_getLast hne).symm⟩
  have hname : IsName name := hnames name (by simp)
  obtain ⟨stem, hstem, hdot, hfileName⟩ := exists_stem_of_extension? hextension
  have hjoin : directory.join ⟨false, folders ++ [name]⟩ =
      ⟨directory.absolute, dropFinalSeparator directory.segments ++ folders ++ [name]⟩ := by
    unfold Path.join
    rw [if_neg Bool.false_ne_true, List.append_assoc]
  rw [hjoin, fileName?_append hname] at hfileName
  obtain rfl := Option.some.inj hfileName
  refine ⟨folders, stem, rfl, ?_, hname, hstem, hdot⟩
  intro folder hfolder
  exact hnames folder (List.mem_append_left _ hfolder)

/-- No document is found twice. -/
theorem nodup_documents {tree : FileTree} (hsound : tree.Sound) {directory : Path}
    (hdirectory : tree.kind? directory = some .directory) (extension : String) :
    (documentsAmong extension (tree.filesBelow directory)).Nodup := by
  obtain ⟨ways, hfiles, hnodup, -⟩ := exists_ways hsound hdirectory
  unfold documentsAmong
  rw [(List.mergeSort_perm _ _).nodup_iff, hfiles]
  exact (hnodup.map fun _ _ => join_inj).filter _

/-! ### Where their artifacts go -/

/-- Where the code of a document below a directory goes. -/
def codeAddress (outDir directory file : Path) : Address :=
  (resultPaths outDir (relativeTo directory file)).1.address

/-- Where the stylesheet of a document below a directory goes. -/
def styleAddress (outDir directory file : Path) : Address :=
  (resultPaths outDir (relativeTo directory file)).2.address

/-- A stem with something behind it is a name. -/
theorem isName_stem {stem ending : String} (hstem : stem ≠ "") (hending : ending ≠ "") :
    IsName (stem ++ "." ++ ending) := by
  have hlength : 3 ≤ (stem ++ "." ++ ending).toList.length := by
    have hstem' : 0 < stem.toList.length := List.length_pos_iff.2 (by simpa using hstem)
    have hending' : 0 < ending.toList.length := List.length_pos_iff.2 (by simpa using hending)
    simp only [String.toList_append, List.length_append]
    have hdot : ".".toList.length = 1 := rfl
    omega
  have hne {other : String} (hother : other.toList.length < 3) : stem ++ "." ++ ending ≠ other := by
    intro heq
    rw [heq] at hlength
    omega
  refine ⟨?_, hne (by decide)⟩
  rw [isIdle, Bool.or_eq_false_iff, beq_eq_false_iff_ne, beq_eq_false_iff_ne]
  exact ⟨hne (by decide), hne (by decide)⟩

theorem stem_inj {stem stem' ending : String} (h : stem ++ "." ++ ending = stem' ++ "." ++ ending) :
    stem = stem' := by
  have htext := String.toList_inj.2 h
  simp only [String.toList_append, List.append_assoc] at htext
  exact String.toList_inj.1 (List.append_cancel_right htext)

namespace DocumentAt

variable {directory outDir file file' : Path} {extension stem stem' : String}
    {folders folders' : List String}

/-- Another extension on a path below any directory. -/
theorem withExtension_join (h : DocumentAt directory extension folders stem file) (base : Path)
    (other : String) :
    (base.join ⟨false, folders ++ [stem ++ "." ++ extension]⟩).withExtension other =
      base.join ⟨false, folders ++ [stem ++ "." ++ other]⟩ := by
  unfold Path.join
  rw [if_neg Bool.false_ne_true, if_neg Bool.false_ne_true, ← List.append_assoc,
    ← List.append_assoc]
  exact withExtension_stem h.stem_ne h.dot_notMem h.isName _ _ other

theorem address_result (h : DocumentAt directory extension folders stem file) (outDir : Path)
    {ending : String} (hending : ending ≠ "") :
    ((outDir.join (relativeTo directory file)).withExtension ending).address =
      lead [] (dropFinalSeparator outDir.segments) ++ (folders ++ [stem ++ "." ++ ending]) := by
  rw [h.file_eq, relativeTo_join h.isName_folders h.isName, h.withExtension_join]
  apply address_join
  intro segment hsegment
  rcases List.mem_append.1 hsegment with hfolder | hname
  · exact h.isName_folders segment hfolder
  · rw [List.mem_singleton.1 hname]
    exact isName_stem h.stem_ne hending

/-- Two artifacts are the same file if they have the same folders and the same name. -/
theorem address_eq_iff (h : DocumentAt directory extension folders stem file)
    (h' : DocumentAt directory extension folders' stem' file') (outDir : Path)
    {ending ending' : String} (hending : ending ≠ "") (hending' : ending' ≠ "") :
    ((outDir.join (relativeTo directory file)).withExtension ending).address =
        ((outDir.join (relativeTo directory file')).withExtension ending').address ↔
      folders = folders' ∧ stem ++ "." ++ ending = stem' ++ "." ++ ending' := by
  rw [h.address_result outDir hending, h'.address_result outDir hending',
    List.append_cancel_left_eq]
  constructor
  · intro heq
    obtain ⟨hfolders, hname⟩ := List.append_inj' heq rfl
    exact ⟨hfolders, List.head_eq_of_cons_eq hname⟩
  · rintro ⟨rfl, hname⟩
    rw [hname]

/-- Artifacts with the same ending are the same file only if they are of the same document. -/
theorem eq_of_address_eq (h : DocumentAt directory extension folders stem file)
    (h' : DocumentAt directory extension folders' stem' file') (outDir : Path) {ending : String}
    (hending : ending ≠ "")
    (heq : ((outDir.join (relativeTo directory file)).withExtension ending).address =
      ((outDir.join (relativeTo directory file')).withExtension ending).address) : file =
        file' := by
  obtain ⟨rfl, hname⟩ := (h.address_eq_iff h' outDir hending hending).1 heq
  obtain rfl := stem_inj hname
  rw [h.file_eq, h'.file_eq]

/-- The twin of a document: the same name with `style` before the extension. -/
theorem twin_eq_iff (h : DocumentAt directory extension folders stem file)
    (h' : DocumentAt directory extension folders' stem' file') :
    file' = file.withExtension ("style." ++ extension) ↔
      folders = folders' ∧ stem ++ ".style" = stem' := by
  have hstyle : stem ++ "." ++ ("style." ++ extension) = stem ++ ".style" ++ "." ++ extension := by
    simp only [String.append_assoc]
    rfl
  rw [h'.file_eq, h.file_eq, h.withExtension_join, hstyle]
  constructor
  · intro heq
    obtain ⟨hfolders, hname⟩ := List.append_inj' (join_inj heq) rfl
    exact ⟨hfolders.symm, (stem_inj (List.head_eq_of_cons_eq hname)).symm⟩
  · rintro ⟨rfl, rfl⟩
    rfl

/-- **A style file is the code file of another document exactly if that is the twin.** -/
theorem styleAddress_eq_codeAddress_iff (h : DocumentAt directory extension folders stem file)
    (h' : DocumentAt directory extension folders' stem' file') (outDir : Path) :
    styleAddress outDir directory file = codeAddress outDir directory file' ↔
      file' = file.withExtension ("style." ++ extension) := by
  have hstyle : stem ++ "." ++ "style.js" = stem ++ ".style" ++ "." ++ "js" := by
    simp only [String.append_assoc]
    rfl
  rw [h.twin_eq_iff h']
  refine (h.address_eq_iff h' outDir (by decide) (by decide)).trans ?_
  rw [hstyle]
  constructor
  · rintro ⟨hfolders, hname⟩
    exact ⟨hfolders, stem_inj hname⟩
  · rintro ⟨hfolders, rfl⟩
    exact ⟨hfolders, rfl⟩

/-- The two files of a document are different. -/
theorem codeAddress_ne_styleAddress (h : DocumentAt directory extension folders stem file)
    (outDir : Path) :
    codeAddress outDir directory file ≠ styleAddress outDir directory file := by
  intro heq
  obtain ⟨-, hname⟩ := (h.address_eq_iff h outDir (by decide) (by decide)).1 heq
  have hlength := congrArg (·.toList.length) hname
  have hlonger : "js".toList.length < "style.js".toList.length := by decide
  simp only [String.toList_append, List.length_append] at hlength
  omega

end DocumentAt

/-! ### Two documents -/

/-- A document with a stylesheet. -/
def smallText : String :=
  "<style>a</style><script/>"

/-- Its styling section. -/
def smallStyle : Section :=
  ⟨"style", [], "a", .text "a", ⟨0, 16⟩, ⟨7, 8⟩, ⟨1, 8⟩⟩

/-- Its logic section. -/
def smallScript : Section :=
  ⟨"script", [], "", .text "", ⟨16, 25⟩, ⟨25, 25⟩, ⟨1, 26⟩⟩

/-- What it becomes. -/
def smallOutput : Output :=
  ⟨"\n", some (Pipeline.styleModule "a")⟩

theorem parse_smallText : Document.parse smallText = .ok ⟨[smallStyle, smallScript]⟩ := by
  have hstyle : Markup.lexContent smallText.toList =
      some ⟨[], "<style".toList, .ok (.openTag "style"), ">a</style><script/>".toList⟩ := rfl
  have hscript : Markup.lexContent "<script/>".toList =
      some ⟨[], "<script".toList, .ok (.openTag "script"), "/>".toList⟩ := rfl
  have hreadStyle : Document.readSection smallText.toList "style" 0 6 ">a</style><script/>".toList =
      .ok ⟨smallStyle, 16, "<script/>".toList⟩ := by with_unfolding_all rfl
  have hreadScript : Document.readSection smallText.toList "script" 16 23 "/>".toList =
      .ok ⟨smallScript, 25, []⟩ := by with_unfolding_all rfl
  exact Document.parse_of_pair hstyle rfl hreadStyle hscript rfl hreadScript

theorem compile_smallText (id : String) :
    (Pipeline.compile { registry := .builtin } smallText id).result = .ok smallOutput := by
  have hslots : (Pipeline.chooseSections smallText).result =
      .ok ⟨none, some smallScript, some smallStyle⟩ :=
    Pipeline.chooseSections_eq_ok_iff.2 ⟨_, parse_smallText, by rfl, by rfl⟩
  -- The stylesheet and the script are compiled one after the other; there is no markup.
  have hstyle :
    (Pipeline.compileStyling { registry := .builtin } smallStyle ⟨smallText, id⟩).result =
      .ok (Pipeline.styleModule "a") := by
    have hlanguage : smallStyle.language?.or SectionRole.styling.usualLanguage? = some "css" := rfl
    have hpadded : Pipeline.paddedText smallStyle = "a" := rfl
    have hcss : compileStylesheet "a" = .ok "a" := by with_unfolding_all rfl
    rw [Pipeline.result_compileStyling, hlanguage, hpadded,
      Pipeline.result_applyCapability_css rfl rfl, hcss]
    rfl
  have hlogic :
    (Pipeline.compileLogic { registry := .builtin } (some smallScript) none
    ⟨smallText, id⟩).result =
      .ok "\n" := by
    have hlanguage : languageKey smallScript.logicLanguage = "js" := rfl
    have hdedent : Text.dedent (Pipeline.paddedText smallScript).toList = [] := rfl
    refine (Pipeline.compileLogic_none_eq_ok_iff rfl hlanguage).2 ?_
    rw [hdedent, compileScript_eq_ok_iff]
    exact ⟨fun _ => Script.checkFrom_nil none {}, rfl⟩
  rw [Pipeline.result_compile_of_chooseSections hslots]
  exact Pipeline.compileSlots_eq_ok_iff.2 ⟨none, rfl, Pipeline.whenPresent_some_eq_ok_iff.2
    ⟨_, hstyle, rfl⟩, hlogic⟩

/-- Where two documents are. -/
def pairSource : Path := ⟨true, ["src"]⟩

/-- Where their artifacts go. -/
def pairTarget : Path := ⟨true, ["dist"]⟩

/-- One of them. -/
def pairFile (name : String) : Path := ⟨true, ["src", name]⟩

/-- Both. -/
def pairFiles (first second : String) : List Path := [pairFile first, pairFile second]

/-- The small document under two names. -/
def pairScene (first second : String) : Scene :=
  { tree := ⟨[(["src", first], smallText), (["src", second], smallText)], [["src"]]⟩ }

section Pair

variable {first second : String} {files : List Path}

theorem compiled_pairScene {file : Path}
    (h : (pairScene first second).tree.read file = .ok smallText) :
    compiled { registry := .builtin } (pairScene first second).tree file = .ok smallOutput := by
  unfold compiled
  rw [h]
  dsimp only
  rw [compile_smallText]
  rfl

/-- The jobs of the documents, done. -/
def pairJobs (files : List Path) : List FinishedJob :=
  (jobsFor files).map fun job => { job with result := .ok smallOutput }

/-- A compile of the documents comes down to settling jobs that are known. -/
theorem ensures_compile_pair (post : FileTree → Prop)
    (hread : ∀ file ∈ files, (pairScene first second).tree.read file = .ok smallText)
    (hsettle : Ensures ((pairJobs files).foldlM (settle (.directory pairTarget) pairSource) {})
      (pairScene first second)
      fun tally scene' => tally.failed = 0 ∧ post scene'.tree) :
    Ensures (compileDocuments id { registry := .builtin }
      (.directory pairTarget) pairSource files).run
      (pairScene first second) fun result scene' => result = .ok () ∧ post scene'.tree := by
  -- Each job reads the same text, so its result is known without running it.
  have hjobs :
    (jobsFor files).map (Job.finished { registry := .builtin } (pairScene first second).tree) =
      pairJobs files := by
    refine List.map_congr_left ?_
    intro job hjob
    unfold Job.finished
    rw [compiled_pairScene (hread job.file ?_)]
    rw [← map_file_jobsFor files]
    exact List.mem_map_of_mem hjob
  -- The jobs are finished in the order in which they were given.
  have horder : inDocumentOrder (pairJobs files) = pairJobs files := by
    apply inDocumentOrder_of_jobsFor
    rw [pairJobs, List.map_map]
    exact List.map_id' _
  apply ensures_compileDocuments
  unfold settleAll
  rw [id_eq, hjobs, horder]
  refine hsettle.mono ?_
  rintro tally settled ⟨hfailed, hpost⟩ result scene' htree hresult
  rw [htree]
  exact ⟨hresult.2 hfailed, hpost⟩

/-- The documents are found if they are in the order of paths. -/
theorem documentsAmong_of_pairwise {extension : String}
    (hextension : ∀ file ∈ files, file.extension? = some extension)
    (horder : files.Pairwise fun f g => Path.precedes f g = true) :
    documentsAmong extension files = files := by
  unfold documentsAmong
  rw [List.filter_eq_self.2 fun file hfile => decide_eq_true (hextension file hfile)]
  exact List.mergeSort_of_pairwise horder

end Pair

/-! ### No artifact overwrites another -/

section

variable {tree : FileTree} {directory outDir : Path} {extension : String}

theorem map_fst_artifactsOf (outDir directory file : Path) (output : Output) :
    (artifactsOf outDir directory file (.ok output)).map Prod.fst =
      codeAddress outDir directory file :: (output.style.map fun _ =>
        styleAddress outDir directory file).toList := by
  show (artifacts outDir (relativeTo directory file) output).map Prod.fst = _
  unfold artifacts
  cases output.style with
  | none => rfl
  | some style => rfl

/-- An artifact of a document is its code or, if there is a stylesheet, its style. -/
theorem address_of_mem_artifactsOf {file : Path} {result : Except DocumentError Output}
    {address : Address} (h : address ∈ (artifactsOf outDir directory file result).map Prod.fst) :
    address = codeAddress outDir directory file ∨
      (∃ output, result = .ok output ∧ output.style.isSome = true) ∧
        address = styleAddress outDir directory file := by
  cases result with
  | error error => contradiction
  | ok output =>
    rw [map_fst_artifactsOf] at h
    rcases List.mem_cons.1 h with h | h
    · exact .inl h
    · obtain ⟨style, hstyle, rfl⟩ := Option.map_eq_some_iff.1 (Option.mem_toList.1 h)
      exact .inr ⟨⟨output, rfl, Option.isSome_of_eq_some hstyle⟩, rfl⟩

theorem DocumentAt.nodup_artifactsOf {folders : List String} {stem : String} {file : Path}
    (h : DocumentAt directory extension folders stem file) (outDir : Path)
    (result : Except DocumentError Output) :
    ((artifactsOf outDir directory file result).map Prod.fst).Nodup := by
  cases result with
  | error error => exact List.nodup_nil
  | ok output =>
    rw [map_fst_artifactsOf]
    cases output.style with
    | none => exact List.nodup_singleton _
    | some style => simpa using h.codeAddress_ne_styleAddress outDir

/-- **Which artifacts meet.** Code files of different documents are different, and so are style
files. A style file is the code file of another document exactly if that is its twin. -/
theorem artifacts_apart (hsound : tree.Sound) (hdirectory : tree.kind? directory = some .directory)
    {f g : Path} (hf : f ∈ documentsAmong extension (tree.filesBelow directory))
    (hg : g ∈ documentsAmong extension (tree.filesBelow directory)) (hne : f ≠ g) (outDir : Path) :
    codeAddress outDir directory f ≠ codeAddress outDir directory g ∧
      styleAddress outDir directory f ≠ styleAddress outDir directory g ∧
      (styleAddress outDir directory f = codeAddress outDir directory g ↔
        g = f.withExtension ("style." ++ extension)) := by
  obtain ⟨folders, stem, hf⟩ := exists_documentAt hsound hdirectory hf
  obtain ⟨folders', stem', hg⟩ := exists_documentAt hsound hdirectory hg
  refine ⟨?_, ?_, hf.styleAddress_eq_codeAddress_iff hg outDir⟩
  · exact fun heq => hne (hf.eq_of_address_eq hg outDir (by decide) heq)
  · exact fun heq => hne (hf.eq_of_address_eq hg outDir (by decide) heq)

/-- No two artifacts have the same address if no document with a stylesheet has its twin among the
documents. -/
theorem nodup_artifacts (hsound : tree.Sound) (hdirectory : tree.kind? directory = some .directory)
    {result : Path → Except DocumentError Output}
    (htwins : ∀ f ∈ documentsAmong extension (tree.filesBelow directory), ∀ output,
      result f = .ok output →
      output.style.isSome = true →
        f.withExtension ("style." ++ extension) ∉ documentsAmong extension
          (tree.filesBelow directory)) :
    (((documentsAmong extension (tree.filesBelow directory)).flatMap fun file =>
      artifactsOf outDir directory file (result file)).map Prod.fst).Nodup := by
  rw [List.map_flatMap, List.nodup_flatMap]
  constructor
  · intro f hf
    obtain ⟨folders, stem, hf⟩ := exists_documentAt hsound hdirectory hf
    exact hf.nodup_artifactsOf outDir _
  refine (nodup_documents hsound hdirectory extension).pairwise_of_forall_ne ?_
  intro f hf g hg hne address haddress haddress'
  obtain ⟨hcode, hstyle, htwin⟩ := artifacts_apart hsound hdirectory hf hg hne outDir
  obtain ⟨-, -, htwin'⟩ := artifacts_apart hsound hdirectory hg hf hne.symm outDir
  -- Two artifacts of different documents are at one address only if one of the documents is the
  -- twin of the other.
  rcases address_of_mem_artifactsOf haddress with rfl | ⟨⟨output, houtput, hsome⟩, rfl⟩
  · rcases address_of_mem_artifactsOf haddress' with heq | ⟨⟨output, houtput, hsome⟩, heq⟩
    · exact hcode heq
    · exact htwins g hg output houtput hsome (htwin'.1 heq.symm ▸ hf)
  · rcases address_of_mem_artifactsOf haddress' with heq | ⟨-, heq⟩
    · exact htwins f hf output houtput hsome (htwin.1 heq ▸ hg)
    · exact hstyle heq

end

/-- **No artifact overwrites another, twins apart.** Of two documents below a directory the code
files are different, the style files are different, and the style file of one is the code file of
the other exactly if that is its twin. So a compile that succeeds, in whatever order its jobs are
done, leaves the code and the stylesheet of every document, unless a document with a stylesheet has
its twin among the documents. -/
theorem artifacts_kept {scene : Scene} (hsound : scene.tree.Sound) {directory : Path}
    (hdirectory : scene.tree.kind? directory = some .directory) {extension : String}
    {files : List Path}
    (hfiles : files = documentsAmong extension (scene.tree.filesBelow directory)) (outDir : Path) :
    (∀ f ∈ files, ∀ g ∈ files, f ≠ g →
      codeAddress outDir directory f ≠ codeAddress outDir directory g ∧
        styleAddress outDir directory f ≠ styleAddress outDir directory g ∧
        (styleAddress outDir directory f = codeAddress outDir directory g ↔
          g = f.withExtension ("style." ++ extension))) ∧
      ∀ (schedule : List Job → List Job) (pipeline : Pipeline),
        (∀ jobs, (schedule jobs).Perm jobs) →
        (∀ f ∈ files, ∀ output, compiled pipeline scene.tree f = .ok output →
        output.style.isSome = true →
          f.withExtension ("style." ++ extension) ∉ files) →
        Ensures (compileDocuments schedule pipeline (.directory outDir) directory files).run scene
          fun result scene' =>
          result = .ok () → ∀ f ∈ files, ∃ output, compiled pipeline scene.tree f = .ok output ∧
            scene'.tree.textAt? (codeAddress outDir directory f) = some output.code ∧
            ∀ style, output.style = some style →
              scene'.tree.textAt? (styleAddress outDir directory f) = some style := by
  subst hfiles
  constructor
  · intro f hf g hg hne
    exact artifacts_apart hsound hdirectory hf hg hne outDir
  · intro schedule pipeline hschedule htwins
    refine (ensures_artifacts hschedule (nodup_artifacts hsound hdirectory htwins)).mono ?_
    intro result scene' hkept hok f hf
    obtain ⟨output, houtput, hholds⟩ := hkept hok f hf
    refine ⟨output, houtput, hholds _ List.mem_cons_self, ?_⟩
    intro style hstyle
    refine hholds (styleAddress outDir directory f, style) (List.mem_cons_of_mem _ ?_)
    rw [hstyle]
    exact List.mem_singleton.2 rfl

/-- The document as `A.weave` and `B.weave`: both are compiled, and what they become stays. -/
theorem artifacts_kept_pair :
    Ensures (compileDocuments id { registry := .builtin } (.directory pairTarget) pairSource
        (pairFiles "A.weave" "B.weave")).run (pairScene "A.weave" "B.weave") fun _ scene' =>
      ∀ f ∈ pairFiles "A.weave" "B.weave", ∃ output,
        compiled { registry := .builtin } (pairScene "A.weave" "B.weave").tree f = .ok output ∧
        scene'.tree.textAt? (codeAddress pairTarget pairSource f) = some output.code ∧
        ∀ style, output.style = some style →
          scene'.tree.textAt? (styleAddress pairTarget pairSource f) = some style := by
  -- The scene is finite, so everything that is asked of it is computed.
  have hsound : (pairScene "A.weave" "B.weave").tree.Sound := ⟨by decide +kernel, by decide +kernel⟩
  have hdirectory : (pairScene "A.weave" "B.weave").tree.kind? pairSource = some .directory := by
    decide +kernel
  have hbelow : (pairScene "A.weave" "B.weave").tree.filesBelow pairSource =
      pairFiles "A.weave" "B.weave" := by
    decide +kernel
  have hfiles : pairFiles "A.weave" "B.weave" =
      documentsAmong "weave" ((pairScene "A.weave" "B.weave").tree.filesBelow pairSource) := by
    rw [hbelow, documentsAmong_of_pairwise (by decide +kernel) (by decide +kernel)]
  have htwins : ∀ f ∈ pairFiles "A.weave" "B.weave",
      f.withExtension ("style." ++ "weave") ∉ pairFiles "A.weave" "B.weave" := by
    decide +kernel
  -- That the run succeeds is computed, too; that the artifacts stay is the theorem.
  have hsuccess :
    Ensures (compileDocuments id { registry := .builtin } (.directory pairTarget) pairSource
      (pairFiles "A.weave" "B.weave")).run (pairScene "A.weave" "B.weave") fun result _ =>
        result = .ok () := by
    refine (ensures_compile_pair (fun _ => True) (by decide +kernel) ?_).mono fun _ _ h => h.1
    unfold Ensures
    decide +kernel
  exact (artifacts_kept hsound hdirectory hfiles pairTarget).2 id _ (fun _ => .refl _)
    (fun f hf _ _ _ => htwins f hf) hsuccess

/-- **A twin is overwritten.** The document as `A.weave` and `A.style.weave`: both are documents of
the directory, both compile, and a compile succeeds, but `A.style.js` then has the stylesheet of the
first and not the code of the second. -/
theorem twin_overwrites :
    documentsAmong "weave" ((pairScene "A.style.weave" "A.weave").tree.filesBelow pairSource) =
        pairFiles "A.style.weave" "A.weave" ∧
      styleAddress pairTarget pairSource (pairFile "A.weave") =
        codeAddress pairTarget pairSource (pairFile "A.style.weave") ∧
      (∀ f ∈ pairFiles "A.style.weave" "A.weave",
        compiled { registry := .builtin } (pairScene "A.style.weave" "A.weave").tree f =
          .ok smallOutput) ∧
      Ensures (compileDocuments id { registry := .builtin } (.directory pairTarget) pairSource
          (pairFiles "A.style.weave" "A.weave")).run (pairScene "A.style.weave" "A.weave")
              fun result scene' =>
        result = .ok () ∧
          scene'.tree.textAt? (codeAddress pairTarget pairSource (pairFile "A.style.weave")) =
            smallOutput.style ∧
          smallOutput.style ≠ some smallOutput.code := by
  -- Both documents are found and read, and then the run is followed to its end.
  have hbelow : (pairScene "A.style.weave" "A.weave").tree.filesBelow pairSource =
      pairFiles "A.style.weave" "A.weave" := by
    decide +kernel
  have hread : ∀ f ∈ pairFiles "A.style.weave" "A.weave",
      (pairScene "A.style.weave" "A.weave").tree.read f = .ok smallText := by
    decide +kernel
  refine ⟨?_, by decide +kernel, fun f hf => compiled_pairScene (hread f hf), ?_⟩
  · rw [hbelow, documentsAmong_of_pairwise (by decide +kernel) (by decide +kernel)]
  · refine ensures_compile_pair (fun tree =>
      tree.textAt? (codeAddress pairTarget pairSource (pairFile "A.style.weave")) =
        smallOutput.style ∧
        smallOutput.style ≠ some smallOutput.code) hread ?_
    unfold Ensures
    decide +kernel

end Triptych.Project
