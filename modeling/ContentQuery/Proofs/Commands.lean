import ContentQuery.Command.Run
import ContentQuery.Proofs.Closure
import ContentQuery.Proofs.FileTree
import ContentQuery.Proofs.Report

namespace ContentQuery

theorem assemble_of_error {registry : Registry} {settings : Settings} {root : String}
    {error : CompileError} (h : (compile registry settings root).value = .error error) :
    assemble registry settings root = ⟨.error error, (compile registry settings root).events⟩ := by
  rw [assemble]
  rcases hcompile : compile registry settings root with ⟨value, events⟩
  rw [hcompile] at h
  obtain rfl : value = .error error := h
  rfl

theorem assemble_of_ok {registry : Registry} {settings : Settings} {root : String}
    {c : Compilation} (h : (compile registry settings root).value = .ok c) :
    assemble registry settings root =
      ⟨.ok ⟨⟨root, c.fragments⟩, c.diagnostics⟩,
        (compile registry settings root).events ++
          [.documentAssembled root c.fragments.length]⟩ := by
  rw [assemble]
  rcases hcompile : compile registry settings root with ⟨value, events⟩
  rw [hcompile] at h
  obtain rfl : value = .ok c := h
  rfl

/-- The query on the content items that spreads a type, line by line. -/
def queryText (type : String) : String :=
  String.join (["query FetchContent($where: _ContentWhereInput) \x7b",
    "  _Content(where: $where) \x7b", "    item \x7b", "      __typename", "      ..." ++ type,
    "    \x7d", "  \x7d", "\x7d"].map (· ++ "\n"))

theorem intercalate_append (separator part : String) (parts : List String) :
    separator.intercalate (part :: parts) ++ separator =
      String.join ((part :: parts).map (· ++ separator)) := by
  induction parts generalizing part with
  | nil => simp
  | cons next parts ih =>
      rw [String.intercalate_cons_cons, String.append_assoc, ih]
      simp only [List.map_cons, String.join_cons, String.append_assoc]

theorem Document.render_eq (d : Document) :
    d.render ++ "\n" = Fragment.lines d.fragments ++ queryText d.root := by
  have hspread : "      " ++ spread d.root = "      ..." ++ d.root := by
    rw [spread, ← String.append_assoc]
    rfl
  rw [render, String.append_assoc, queryLines, intercalate_append, hspread]
  rfl

namespace Command

/-- What a run says on the error stream besides the log. -/
def said (notices : List Notice) : List String :=
  notices.filterMap fun notice =>
    match notice with
    | .event _ => none
    | .text text => some text

theorem said_append (notices notices' : List Notice) :
    said (notices ++ notices') = said notices ++ said notices' :=
  List.filterMap_append

theorem said_events (events : List Event) : said (events.map .event) = [] := by
  induction events with
  | nil => rfl
  | cons event events ih => exact ih

section

variable {types : ContentTypes} {settings : Settings} {type : String} (notices : List Notice)

theorem perform_of_error {error : CompileError}
    (h : (compile types.registry settings type).value = .error error) :
    perform types settings notices (.fragments type) =
        .done (failed (notices ++ (compile types.registry settings type).events.map .event)
          error.message) ∧
      ∀ output, perform types settings notices (.query type output) =
        perform types settings notices (.fragments type) := by
  have hfragments : perform types settings notices (.fragments type) =
      .done (failed (notices ++ (compile types.registry settings type).events.map .event)
        error.message) := by
    simp only [perform, h]
  refine ⟨hfragments, fun output => ?_⟩
  rw [hfragments]
  simp only [perform, assemble_of_error h]

/-- What both commands said once the document was made. -/
def assembled (types : ContentTypes) (settings : Settings) (type : String) (c : Compilation)
    (notices : List Notice) : List Notice :=
  notices ++ ((compile types.registry settings type).events ++
    [Event.documentAssembled type c.fragments.length]).map .event

theorem perform_of_ok {c : Compilation}
    (h : (compile types.registry settings type).value = .ok c) :
    perform types settings notices (.fragments type) =
        .done ⟨true, Fragment.lines c.fragments,
          notices ++ (compile types.registry settings type).events.map .event ++
            warnings c.diagnostics⟩ ∧
      perform types settings notices (.query type none) =
        .done ⟨true, Fragment.lines c.fragments ++ queryText type,
          assembled types settings type c notices ++ warnings c.diagnostics⟩ ∧
      ∀ path, perform types settings notices (.query type (some path)) =
        .writing ⟨path, ⟨type, c.fragments⟩, c.diagnostics,
          assembled types settings type c notices⟩ := by
  refine ⟨?_, ?_, fun path => ?_⟩
  · simp only [perform, h]
  · simp only [perform, assemble_of_ok h, Document.render_eq, assembled]
  · simp only [perform, assemble_of_ok h, assembled]

end

/-- What is read of a manifest. -/
def manifestContent (tree : FileTree) (input : ByteArray) (manifest : String) :
    Except FileError String :=
  match Source.ofPath manifest with
  | .file path => tree.readText input path
  | .standardInput => decodeText input

/-- How a run ends, with the tree that it leaves. -/
def Run.settle (tree : FileTree) : Run → Outcome × FileTree
  | .done outcome => (outcome, tree)
  | .writing w =>
      match tree.write w.path w.content.toUTF8 with
      | .error error => (w.finish (some error), tree)
      | .ok (.stored tree) => (w.finish none, tree)
      | .ok (.sent device) => (w.send device, tree)
      | .ok .outside => (w.finish none, tree)

/-- The same request with another action. -/
def Request.toDo (action : Action) (r : Request) : Request := { r with action }

section

variable {tree : FileTree} {input : ByteArray} {r : Request} {environment : Option String}
  {text : String}

theorem runIn_eq (hread : manifestContent tree input r.manifest = .ok text) (action : Action) :
    runIn tree input (r.toDo action) environment =
      (run (r.toDo action) environment (.ok text)).settle tree := by
  rw [← hread]
  rfl

theorem run_of_malformed {fault : Manifest.Fault} (h : Manifest.parse text = .error fault)
    (action : Action) :
    run (r.toDo action) environment (.ok text) =
      .done (failed ((r.settings environment).events.map .event)
        (LoadError.malformed (.ofPath r.manifest) fault).message) := by
  have hload : ContentTypes.load (.ofPath (r.toDo action).manifest) (.ok text) =
      ⟨.error (.malformed (.ofPath r.manifest) fault), []⟩ := by
    simp only [ContentTypes.load, h, Request.toDo]
  unfold run
  simp only [hload, List.append_nil]
  rfl

/-- What is said of a manifest before its types are looked at. -/
def opening (r : Request) (environment : Option String) (types : ContentTypes) : List Notice :=
  ((r.settings environment).events ++
    [Event.manifestLoaded (Source.ofPath r.manifest).label types.size]).map .event

theorem run_of_parsed {declarations : List ContentType}
    (h : Manifest.parse text = .ok declarations) (action : Action) :
    run (r.toDo action) environment (.ok text) =
      perform (.ofList declarations) (r.settings environment).value
        (opening r environment (.ofList declarations)) action := by
  have hload : ContentTypes.load (.ofPath (r.toDo action).manifest) (.ok text) =
      ⟨.ok (.ofList declarations),
        [.manifestLoaded (Source.ofPath r.manifest).label
          (ContentTypes.ofList declarations).size]⟩ := by
    simp only [ContentTypes.load, h, Request.toDo]
  unfold run
  simp only [hload]
  rfl

end

theorem said_opening (r : Request) (environment : Option String) (types : ContentTypes) :
    said (opening r environment types) = [] :=
  said_events _

theorem said_failed {notices : List Notice} (h : said notices = []) (message : String) :
    said (failed notices message).notices = ["error: " ++ message ++ "\n"] := by
  rw [failed, said_append, h]
  rfl

/-- What a writing comes to once its content is accepted. -/
def Writing.accepted (w : Writing) (tree : FileTree) : FileTree.Written → Outcome × FileTree
  | .stored tree' => (w.finish none, tree')
  | .sent device => (w.send device, tree)
  | .outside => (w.finish none, tree)

theorem Writing.settle_of_ok {w : Writing} {tree : FileTree} {written : FileTree.Written}
    (h : tree.write w.path w.content.toUTF8 = .ok written) :
    (Run.writing w).settle tree = w.accepted tree written := by
  simp only [Run.settle, h]
  cases written <;> rfl

theorem Writing.exitCode_accepted (w : Writing) (tree : FileTree) (written : FileTree.Written) :
    (w.accepted tree written).1.exitCode = 0 := by
  rcases written with tree' | device | _
  · rfl
  · cases device <;> rfl
  · rfl

/-- Whatever takes a document but the error stream itself, the same is said about it. -/
theorem Writing.said_accepted (w : Writing) (tree : FileTree) {written : FileTree.Written}
    (h : written ≠ .sent .standardError) :
    said (w.accepted tree written).1.notices = said (w.notices ++ warnings w.diagnostics) := by
  have hfinish : said (w.finish none).notices = said (w.notices ++ warnings w.diagnostics) := by
    have hevent : said [.event (.documentWritten w.path w.document.fragments.length)] = [] := rfl
    simp only [finish, said_append, hevent, List.append_nil]
  rcases written with tree' | device | _
  · exact hfinish
  · cases device with
    | standardError => exact absurd rfl h
    | null | zero | full | standardInput | standardOutput => exact hfinish
  · exact hfinish

/-- Neither the fragments of a type nor its query are made. One line says why, and nothing is
printed or written. -/
structure FailAlike (tree : FileTree) (run : Action → Outcome × FileTree) (type : String) :
    Prop where
  exitCode : (run (.fragments type)).1.exitCode = 1
  said : ∃ message, said (run (.fragments type)).1.notices = ["error: " ++ message ++ "\n"]
  output : (run (.fragments type)).1.output = ""
  files : (run (.fragments type)).2 = tree
  query : ∀ output, run (.query type output) = run (.fragments type)

/-- The query of a type ends well with the file that it goes to, and leaves its text there. -/
structure WritesAlike (input : ByteArray) (run : Action → Outcome × FileTree) (type path : String)
    (written : FileTree.Written) : Prop where
  exitCode : (run (.query type (some path))).1.exitCode = 0
  said : written ≠ .sent .standardError →
    said (run (.query type (some path))).1.notices = said (run (.query type none)).1.notices
  stored : ∀ tree', written = .stored tree' →
    (run (.query type (some path))).1.output = "" ∧ (run (.query type (some path))).2 = tree' ∧
      tree'.readText input path = .ok (run (.query type none)).1.output
  printed : written = .sent .standardOutput →
    (run (.query type (some path))).1.output = (run (.query type none)).1.output

/-- The fragments of a type and its query are made, with the same warnings. The text of the query
begins with that of the fragments, wherever it goes. -/
structure SucceedAlike (tree : FileTree) (input : ByteArray) (run : Action → Outcome × FileTree)
    (type : String) : Prop where
  exitCode : (run (.fragments type)).1.exitCode = 0
  exitCode_query : (run (.query type none)).1.exitCode = 0
  said : said (run (.query type none)).1.notices = said (run (.fragments type)).1.notices
  output : (run (.query type none)).1.output =
    (run (.fragments type)).1.output ++ queryText type
  writes : ∀ path written,
    tree.write path (run (.query type none)).1.output.toUTF8 = .ok written →
      WritesAlike input run type path written

theorem FailAlike.of_failed {tree : FileTree} {run : Action → Outcome × FileTree} {type : String}
    {notices : List Notice} {message : String} (hsaid : Command.said notices = [])
    (hfragments : run (.fragments type) = (failed notices message, tree))
    (hquery : ∀ output, run (.query type output) = run (.fragments type)) :
    FailAlike tree run type := by
  refine ⟨?_, ⟨message, ?_⟩, ?_, ?_, hquery⟩ <;> rw [hfragments]
  · rfl
  · exact said_failed hsaid message
  · rfl

section

variable {types : ContentTypes} {settings : Settings} {notices : List Notice} {type : String}
  (hsaid : said notices = []) (tree : FileTree) (input : ByteArray)
include hsaid

theorem failAlike_of_error {error : CompileError}
    (h : (compile types.registry settings type).value = .error error) :
    FailAlike tree (fun action => (perform types settings notices action).settle tree) type := by
  obtain ⟨hfragments, hquery⟩ := perform_of_error notices h
  have hevents : said (notices ++ (compile types.registry settings type).events.map .event) =
      [] := by
    rw [said_append, hsaid, said_events]
    rfl
  exact .of_failed hevents (congrArg (Run.settle tree) hfragments)
    fun output => congrArg (Run.settle tree) (hquery output)

theorem succeedAlike_of_ok {c : Compilation}
    (h : (compile types.registry settings type).value = .ok c) :
    SucceedAlike tree input (fun action => (perform types settings notices action).settle tree)
      type := by
  obtain ⟨hfragments, hquery, hwriting⟩ := perform_of_ok notices h
  have hassembled : said (assembled types settings type c notices) = [] := by
    rw [assembled, said_append, hsaid, said_events]
    rfl
  have hmade : (perform types settings notices (.fragments type)).settle tree = (⟨true,
      Fragment.lines c.fragments, notices ++ (compile types.registry settings type).events.map
        .event ++ warnings c.diagnostics⟩, tree) :=
    congrArg (Run.settle tree) hfragments
  have hprinted : (perform types settings notices (.query type none)).settle tree = (⟨true,
      Fragment.lines c.fragments ++ queryText type,
      assembled types settings type c notices ++ warnings c.diagnostics⟩, tree) :=
    congrArg (Run.settle tree) hquery
  constructor
  · simp only [hmade]
    rfl
  · simp only [hprinted]
    rfl
  · simp only [hmade, hprinted, said_append, hsaid, said_events, hassembled, List.nil_append]
  · simp only [hmade, hprinted]
  · intro path written hwritten
    let w : Writing := ⟨path, ⟨type, c.fragments⟩, c.diagnostics,
      assembled types settings type c notices⟩
    have hcontent : w.content = Fragment.lines c.fragments ++ queryText type :=
      Document.render_eq _
    have hwrite : tree.write w.path w.content.toUTF8 = .ok written := by
      simp only [hprinted] at hwritten
      rw [hcontent]
      exact hwritten
    have hrun : (perform types settings notices (.query type (some path))).settle tree =
        w.accepted tree written := by
      rw [hwriting]
      exact Writing.settle_of_ok hwrite
    constructor
    · simp only [hrun, Writing.exitCode_accepted]
    · intro hdevice
      simp only [hrun, hprinted]
      exact w.said_accepted tree hdevice
    · rintro tree' rfl
      simp only [hrun, hprinted]
      rw [hcontent] at hwrite
      exact ⟨rfl, rfl, FileTree.readText_of_write input hwrite⟩
    · rintro rfl
      simp only [hrun, hprinted]
      exact hcontent

omit hsaid in
theorem exitCode_fragments_iff :
    ((perform types settings notices (.fragments type)).settle tree).1.exitCode = 1 ↔
      ¬ ∃ c, (compile types.registry settings type).value = .ok c := by
  cases h : (compile types.registry settings type).value with
  | error error =>
      rw [(perform_of_error notices h).1]
      simp [Run.settle, failed, Outcome.exitCode]
  | ok c =>
      rw [(perform_of_ok notices h).1]
      simp [Run.settle, Outcome.exitCode]

omit hsaid in
theorem exitCode_check_iff (strict : Bool) :
    ((perform types settings notices (.check strict)).settle tree).1.exitCode = 1 ↔
      ¬ (check types settings).value.isValid strict = true := by
  simp [perform, Run.settle, Outcome.exitCode]

end

/-- The commands agree, whatever the manifest holds. Either the fragments of a type and its query
fail alike, or both are made. A check that is not strict fails exactly if the manifest does not
parse or the fragments of a registered type are not made. -/
theorem commands_agree (tree : FileTree) (input : ByteArray) (r : Request)
    (environment : Option String) {text : String}
    (hread : manifestContent tree input r.manifest = .ok text) :
    let run := fun action => runIn tree input (r.toDo action) environment
    (∀ type, FailAlike tree run type ∨ SucceedAlike tree input run type) ∧
      ((run (.check false)).1.exitCode = 1 ↔
        (∃ fault, Manifest.parse text = .error fault) ∨
          ∃ declarations, Manifest.parse text = .ok declarations ∧
            ∃ key ∈ (ContentTypes.ofList declarations).keys,
              (run (.fragments key)).1.exitCode = 1) := by
  intro run
  cases hparse : Manifest.parse text with
  | error fault =>
      have hrun : ∀ action, run action =
          (failed ((r.settings environment).events.map .event)
            (LoadError.malformed (.ofPath r.manifest) fault).message, tree) := by
        intro action
        simp only [run, runIn_eq hread, run_of_malformed hparse]
        rfl
      constructor
      · intro type
        exact Or.inl (.of_failed (said_events _) (hrun _) fun output => by rw [hrun, hrun])
      · rw [hrun]
        simp [failed, Outcome.exitCode]
  | ok declarations =>
      have hsaid := said_opening r environment (.ofList declarations)
      have hrun : run = fun action => Run.settle tree
          (perform (.ofList declarations) (r.settings environment).value
            (opening r environment (.ofList declarations)) action) := by
        funext action
        simp only [run, runIn_eq hread, run_of_parsed hparse]
      constructor
      · intro type
        rw [hrun]
        cases hvalue : (compile (ContentTypes.ofList declarations).registry
            (r.settings environment).value type).value with
        | error error => exact Or.inl (failAlike_of_error hsaid tree hvalue)
        | ok c => exact Or.inr (succeedAlike_of_ok hsaid tree input hvalue)
      · simp only [hrun, exitCode_check_iff, isValid_check_iff, exitCode_fragments_iff]
        simp

/-- A manifest with one type, which has no properties. -/
def pageManifest : String := "[\x7b\"key\":\"Page\",\"baseType\":\"_page\"\x7d]"

def pageRequest : Request := ⟨.check false, "-", 0, false, none⟩

def pageRun (action : Action) : Outcome × FileTree :=
  runIn ⟨[]⟩ pageManifest.toUTF8 (pageRequest.toDo action) none

/-- A page and a type that is missing, in an empty directory. -/
theorem commands_agree_page :
    SucceedAlike ⟨[]⟩ pageManifest.toUTF8 pageRun "Page" ∧ FailAlike ⟨[]⟩ pageRun "Ghost" ∧
      (pageRun (.check false)).1.exitCode = 0 ∧
      (pageRun (.query "Page" (some "page.graphql"))).2.readText pageManifest.toUTF8
        "page.graphql" = .ok (pageRun (.query "Page" none)).1.output := by
  obtain ⟨halike, -⟩ := commands_agree ⟨[]⟩ pageManifest.toUTF8 pageRequest none
    (decodeText_toUTF8 pageManifest)
  have hpage : SucceedAlike ⟨[]⟩ pageManifest.toUTF8 pageRun "Page" :=
    (halike "Page").resolve_left fun hfail => absurd hfail.exitCode (by decide +kernel)
  have hghost : FailAlike ⟨[]⟩ pageRun "Ghost" :=
    (halike "Ghost").resolve_right fun hsucceed => absurd hsucceed.exitCode (by decide +kernel)
  refine ⟨hpage, hghost, by decide +kernel, ?_⟩
  have hwrites := hpage.writes "page.graphql" (.stored _) rfl
  obtain ⟨-, htree, htext⟩ := hwrites.stored _ rfl
  rw [htree]
  exact htext

end Command

end ContentQuery
