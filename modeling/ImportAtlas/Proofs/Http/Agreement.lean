import ImportAtlas.Http.Api
import ImportAtlas.Proofs.Checkout.Address
import ImportAtlas.Proofs.Checkout.Depot
import ImportAtlas.Proofs.Graph.Isolation
import ImportAtlas.Proofs.Http.Query

/-!
# The imports of a file and the edges of a graph

The service answers the same for one file as for all of them: what it says a file imports is what
leads from the file in the graph. The two ask for the file by different paths, though: a graph by
the path as it is written, a request for one file by its real path. Where the host takes one of
these paths only, the other side has nothing to say.
-/

namespace ImportAtlas.Http

open Text Host

variable {config : Config} {ws : Workspace} {owner name path root : String} {place : List String}
  {es : List (String × Entry)} {r : Request}

/-! ## Requests -/

/-- A request for the graph of a whole repository. -/
structure AsksGraph (r : Request) (owner name : String) : Prop where
  method : r.method = "GET"
  path : r.path = "/api/graph"
  fields : ∃ get, queryFields ["owner", "name", "folder"] r.query = .ok get ∧
    Api.nonBlank (get "owner") = some owner ∧ Api.nonBlank (get "name") = some name ∧
    Api.nonBlank (get "folder") = none

/-- A request for the imports of one file. -/
structure AsksImports (r : Request) (owner name file : String) : Prop where
  method : r.method = "GET"
  path : r.path = "/api/parse/test"
  fields : ∃ get, queryFields ["owner", "name", "path"] r.query = .ok get ∧
    Api.nonBlank (get "owner") = some owner ∧ Api.nonBlank (get "name") = some name ∧
    Api.nonBlank (get "path") = some file

theorem nonBlank_eq_some {value : Option String} {s : String} :
    Api.nonBlank value = some s ↔ value = some s ∧ isAllBlank s = false := by
  rw [Api.nonBlank, Option.filter_eq_some_iff, Bool.not_eq_true']

theorem AsksGraph.not_blank (h : AsksGraph r owner name) :
    isAllBlank owner = false ∧ isAllBlank name = false := by
  obtain ⟨get, _, howner, hname, _⟩ := h.fields
  exact ⟨(nonBlank_eq_some.mp howner).2, (nonBlank_eq_some.mp hname).2⟩

theorem isTargetPath_graph : IsTargetPath "/api/graph" := ⟨⟨_, by simp; rfl⟩, by simp⟩

theorem isTargetPath_imports : IsTargetPath "/api/parse/test" := ⟨⟨_, by simp; rfl⟩, by simp⟩

theorem asksGraph_getRequest (howner : isAllBlank owner = false) (hname : isAllBlank name = false) :
    AsksGraph (getRequest "/api/graph" [("owner", owner), ("name", name)]) owner name where
  method := rfl
  path := path_getRequest isTargetPath_graph _
  fields := by
    refine ⟨_, queryFields_getRequest isTargetPath_graph (by simp) (by simp) _, ?_, ?_, ?_⟩
    · exact nonBlank_eq_some.mpr ⟨by simp, howner⟩
    · exact nonBlank_eq_some.mpr ⟨by simp, hname⟩
    · rfl

theorem asksImports_getRequest {file : String} (howner : isAllBlank owner = false)
    (hname : isAllBlank name = false) (hfile : isAllBlank file = false) :
    AsksImports (getRequest "/api/parse/test" [("owner", owner), ("name", name), ("path", file)])
      owner name file where
  method := rfl
  path := path_getRequest isTargetPath_imports _
  fields := by
    refine ⟨_, queryFields_getRequest isTargetPath_imports (by simp) (by simp) _, ?_, ?_, ?_⟩
    · exact nonBlank_eq_some.mpr ⟨by simp, howner⟩
    · exact nonBlank_eq_some.mpr ⟨by simp, hname⟩
    · exact nonBlank_eq_some.mpr ⟨by simp, hfile⟩

/-- An answer as it is sent, open to all origins. -/
def Response.open (response : Response) : Response := { response with allowOrigin := some "*" }

theorem value_respond_of_route {handler : Handler}
    (hroute : Api.route? r.path = some (r.method, handler)) :
    (Api.respond config ws r).value =
      ((handler config ws r).value.1, (handler config ws r).value.2.open) := by
  rw [Api.respond, Api.answer, hroute]
  simp only [beq_self_eq_true, if_true]
  rfl

theorem value_respond_get {handler : Handler} (hmethod : r.method = "GET")
    (hroute : Api.route? r.path = some ("GET", handler)) :
    (Api.respond config ws r).value =
      ((handler config ws r).value.1, (handler config ws r).value.2.open) :=
  value_respond_of_route (hmethod ▸ hroute)

/-- Where one of four conditions holds, each with its own status, the status tells which one. -/
theorem statuses_iff {status : Nat} {refused missing failed succeeded : Prop}
    (hrefused : refused → status = 400) (hmissing : missing → status = 404)
    (hfailed : failed → status = 500) (hsucceeded : succeeded → status = 200)
    (hcases : refused ∨ missing ∨ failed ∨ succeeded) :
    (status = 400 ↔ refused) ∧ (status = 404 ↔ missing) ∧ (status = 500 ↔ failed) ∧
      (status = 200 ↔ succeeded) ∧ status ∈ [200, 400, 404, 500] := by
  rcases hcases with h | h | h | h
  · have hstatus := hrefused h
    simp_all
  · have hstatus := hmissing h
    simp_all
  · have hstatus := hfailed h
    simp_all
  · have hstatus := hsucceeded h
    simp_all

theorem value_respond_graph (h : AsksGraph r owner name) :
    (Api.respond config ws r).value =
      match ((Source.builder config).buildGraph ws.host (.store config.reposDir) owner name
          none).value with
      | .ok g => (ws, (Response.ofJson 200 (GraphResponse.ofGraph owner name none g).toJson).open)
      | .error e => (ws, (Api.failure 500 e).open) := by
  obtain ⟨get, hget, howner, hname, hfolder⟩ := h.fields
  rw [value_respond_get h.method (h.path ▸ rfl : Api.route? r.path = some ("GET", Api.graph))]
  simp only [Api.graph, Api.withFields, hget, howner, hname, hfolder, Logged.value_bind,
    GraphBuilder.buildResponse]
  cases ((Source.builder config).buildGraph ws.host (.store config.reposDir) owner name none).value
  · rfl
  · rfl

theorem value_respond_imports {file : String} (h : AsksImports r owner name file)
    (config : Config) (ws : Workspace) :
    (Api.respond config ws r).value =
      match Checkout.readSource config.reposDir ws.host owner name file with
      | .ok text =>
        (ws, (Response.ofJson 200
          (ParseReport.ofImports file (Source.fileImports file text).value).toJson).open)
      | .error e => (ws, (Response.error 400 e.message).open) := by
  obtain ⟨get, hget, howner, hname, hfile⟩ := h.fields
  rw [value_respond_get h.method (h.path ▸ rfl : Api.route? r.path = some ("GET", Api.parseTest))]
  simp only [Api.parseTest, Api.withFileFields, Api.withFields, hget, howner, hname, hfile,
    Logged.value_bind]
  cases Checkout.readSource config.reposDir ws.host owner name file
  · rfl
  · rfl

/-! ## One file and all files -/

/-- The imports of a file with some bytes. Bytes that are no text have none. -/
def importsIn (file : String) (content : ByteArray) : List ImportStatement :=
  match decodeText content with
  | .ok text => (Source.fileImports file text).value
  | .error _ => []

/-- What imports of a file lead to among the files of a graph. -/
def targetsOf (config : Config) (g : FileGraph) (file : String) (imports : List ImportStatement) :
    List (String × ImportKind) :=
  imports.filterMap fun i =>
    (Resolution.resolve config.graph.resolutionOrder ⟨g.ids⟩ file i.specifier).map
      fun target => (target, i.kind)

/-- Names below a path have a real path, as has the path itself. -/
def HasRealPath (host : Host) (root : String) (names : List String) : Prop :=
  ∃ f, host.canonicalize root = .ok f ∧ FitsBelow f.place names

/-- Where no file is too large, the builder takes the imports of the file that the written path
leads to, if the host takes this path. -/
theorem importsOf_eq (hsize : config.graph.maxFileSize = 0)
    (hr : ws.host.resolve root = .ok ⟨place, .folder es⟩) (hplain : Checkout.IsPlain path)
    {content : ByteArray}
    (hat : (Entry.folder es).at? (Path.segments path) = some (.file content)) :
    (Source.builder config).importsOf ws.host root path =
      if Fits (Location.join root path) (Path.segments path) then importsIn path content
      else [] := by
  have hlimit : (Source.builder config).maxFileSize = 0 := hsize
  rw [GraphBuilder.importsOf, GraphBuilder.imports?,
    Checkout.readBytes_join_segments hr hplain.names hplain.isCanonical.ne_nil hat]
  by_cases hfits : Fits (Location.join root path) (Path.segments path)
  · rw [if_pos hfits, if_pos hfits, importsIn]
    simp only [Except.toOption, Option.bind_eq_bind, Option.bind_some, hlimit, true_or, guard_true,
      Option.pure_def]
    cases decodeText content with
    | error e => rfl
    | ok text => rfl
  · rw [if_neg hfits, if_neg hfits]
    rfl

/-- The edges from a file lead to what its imports do. -/
theorem outgoing_graphOf_eq {files : List String} {file : String} {content : ByteArray}
    (hsize : config.graph.maxFileSize = 0)
    (hr : ws.host.resolve root = .ok ⟨place, .folder es⟩) (hfiles : files.Nodup)
    (hfile : file ∈ files) (hplain : Checkout.IsPlain file)
    (hat : (Entry.folder es).at? (Path.segments file) = some (.file content)) :
    ((Source.builder config).graphOf ws.host root files).outgoing file =
      if Fits (Location.join root file) (Path.segments file) then
        targetsOf config ((Source.builder config).graphOf ws.host root files) file
          (importsIn file content)
      else [] := by
  have horder : (Source.builder config).order = config.graph.resolutionOrder := rfl
  rw [GraphBuilder.outgoing_graphOf (Source.builder config) ws.host root hfiles hfile,
    importsOf_eq hsize hr hplain hat, targetsOf, GraphBuilder.ids_graphOf, horder]
  split <;> rfl

/-- Whether the answers for one file agree with a graph: either its imports, as far as they resolve
in the graph's files, are the edges from it, or there are none and the request fails. -/
def Agrees (config : Config) (ws : Workspace) (g : FileGraph) (file : String) (r : Request) :
    Prop :=
  (∃ report : ParseReport,
    (Api.respond config ws r).value = (ws, (Response.ofJson 200 report.toJson).open) ∧
    report.file = file ∧ targetsOf config g file report.imports = g.outgoing file) ∨
  ((∃ message, (Api.respond config ws r).value = (ws, (Response.error 400 message).open)) ∧
    g.outgoing file = [])

/-- How the edges from a file and the answer to a request for its imports go together. -/
structure GoesWith (config : Config) (ws : Workspace) (root : String) (g : FileGraph)
    (file : String) (content : ByteArray) (r : Request) : Prop where
  edges : g.outgoing file =
    if Fits (Location.join root file) (Path.segments file) then
      targetsOf config g file (importsIn file content)
    else []
  answered : HasRealPath ws.host root (Path.segments file) →
    ∀ text, decodeText content = .ok text → (Api.respond config ws r).value =
      (ws, (Response.ofJson 200
        (ParseReport.ofImports file (Source.fileImports file text).value).toJson).open)
  refused : (HasRealPath ws.host root (Path.segments file) → ∃ e, decodeText content = .error e) →
    ∃ message, (Api.respond config ws r).value = (ws, (Response.error 400 message).open)

theorem importsIn_of_error {file : String} {content : ByteArray} {e : HostError}
    (h : decodeText content = .error e) : importsIn file content = [] := by
  rw [importsIn, h]

/-- Where the host takes both paths of the file or neither, the two agree. -/
theorem GoesWith.agrees {g : FileGraph} {file : String} {content : ByteArray}
    (h : GoesWith config ws root g file content r)
    (hpaths : Fits (Location.join root file) (Path.segments file) ↔
      HasRealPath ws.host root (Path.segments file)) : Agrees config ws g file r := by
  by_cases hreal : HasRealPath ws.host root (Path.segments file)
  · have hedges := h.edges
    rw [if_pos (hpaths.mpr hreal)] at hedges
    cases hdecoded : decodeText content with
    | ok text =>
        refine .inl ⟨_, h.answered hreal text hdecoded, rfl, ?_⟩
        rw [hedges, importsIn, hdecoded, ParseReport.ofImports]
    | error e =>
        refine .inr ⟨h.refused fun _ => ⟨e, hdecoded⟩, ?_⟩
        rw [hedges, importsIn_of_error hdecoded]
        rfl
  · refine .inr ⟨h.refused fun h => absurd h hreal, ?_⟩
    rw [h.edges, if_neg fun hfits => hreal (hpaths.mp hfits)]

theorem goesWith_of_isPlain {files : List String} {file : String} {content : ByteArray}
    (hsize : config.graph.maxFileSize = 0)
    (hroot : Checkout.localPath config.reposDir owner name = .ok root)
    (hr : ws.host.resolve root = .ok ⟨place, .folder es⟩) (hfiles : files.Nodup)
    (hfile : file ∈ files) (hplain : Checkout.IsPlain file)
    (hat : (Entry.folder es).at? (Path.segments file) = some (.file content))
    (hasks : AsksImports r owner name file) :
    GoesWith config ws root ((Source.builder config).graphOf ws.host root files) file content
      r where
  edges := outgoing_graphOf_eq hsize hr hfiles hfile hplain hat
  answered := by
    rintro ⟨f, hreal, hfits⟩ text hdecoded
    obtain rfl := eq_of_canonicalize_of_resolve hr hreal
    rw [value_respond_imports hasks, hplain.readSource hroot hreal hat, if_pos hfits, hdecoded]
    rfl
  refused := by
    intro hmissing
    rw [value_respond_imports hasks]
    cases hreal : ws.host.canonicalize root with
    | error cause =>
        rw [hplain.readSource_of_error hroot hreal]
        exact ⟨_, rfl⟩
    | ok f =>
        obtain rfl := eq_of_canonicalize_of_resolve hr hreal
        rw [hplain.readSource hroot hreal hat]
        by_cases hfits : FitsBelow place (Path.segments file)
        · obtain ⟨e, he⟩ := hmissing ⟨_, hreal, hfits⟩
          rw [if_pos hfits, he]
          exact ⟨_, rfl⟩
        · rw [if_neg hfits]
          exact ⟨_, rfl⟩

/-- Where no link is in the checkout, no backslash in the name of a file and no file too large, the
service answers for each file of a graph as the graph does, as far as the host takes the path of the
file that either of them asks by. -/
theorem imports_agree (hwf : ws.host.root.WellFormed)
    (hroot : Checkout.localPath config.reposDir owner name = .ok root)
    (hr : ws.host.resolve root = .ok ⟨place, .folder es⟩) (hfree : (Entry.folder es).LinkFree)
    (hplain : ∀ names content, (Entry.folder es).at? names = some (.file content) →
      ∀ n ∈ names, '\\' ∉ n.toList)
    (hsize : config.graph.maxFileSize = 0) (hgraph : AsksGraph r owner name) :
    ∃ g, ((Source.builder config).buildGraph ws.host (.store config.reposDir) owner name
        none).value = .ok g ∧
      (Api.respond config ws r).value =
        (ws, (Response.ofJson 200 (GraphResponse.ofGraph owner name none g).toJson).open) ∧
      ∀ file ∈ g.ids, (∃ r', AsksImports r' owner name file) ∧
        ∃ content, (Entry.folder es).at? (Path.segments file) = some (.file content) ∧
          ∀ r', AsksImports r' owner name file → GoesWith config ws root g file content r' ∧
            ((Fits (Location.join root file) (Path.segments file) ↔
              HasRealPath ws.host root (Path.segments file)) → Agrees config ws g file r') := by
  have hes : (Entry.folder es).WellFormed := (hwf.of_at? (at?_of_resolve hr)).1
  have hlists := Discovery.listsInOrder_of_linkFree (d := (Source.builder config).discovery)
    hwf hr hfree
  have hbuild := GraphBuilder.value_buildGraph_of_resolve (b := Source.builder config) hwf hroot hr
  refine ⟨_, hbuild, by rw [value_respond_graph hgraph, hbuild], fun file hfile => ?_⟩
  rw [GraphBuilder.ids_graphOf] at hfile
  have hleads := (hlists.mem_iff file).mp hfile
  obtain ⟨content, hat⟩ := hleads.file
  have hbackslash : '\\' ∉ file.toList := by
    rw [← Path.joinFields_segments file, mem_joinFields (by decide)]
    exact fun ⟨n, hn, hc⟩ => hplain _ _ hat n hn hc
  have hfileplain := Checkout.isPlain_of_leadsToSource hes hleads hbackslash
  refine ⟨⟨_, asksImports_getRequest hgraph.not_blank.1 hgraph.not_blank.2
    hfileplain.not_blank⟩, content, hat, fun r' hasks => ?_⟩
  have hgoes := goesWith_of_isPlain hsize hroot hr hlists.nodup hfile hfileplain hat hasks
  exact ⟨hgoes, hgoes.agrees⟩

/-! ### A file that imports another, which is no text -/

def pairEntries : List (String × Entry) :=
  [("a.js", .file "require('./b')".toUTF8), ("b.js", .file ⟨#[0xff]⟩)]

def configAt (reposDir : String) : Config := { reposDir }

theorem wellFormed_pair : (Entry.folder pairEntries).WellFormed := by decide

theorem linkFree_pair : (Entry.folder pairEntries).LinkFree := by decide

theorem names_pair {names : List String} {content : ByteArray}
    (h : (Entry.folder pairEntries).at? names = some (.file content)) :
    names = ["a.js"] ∨ names = ["b.js"] := by
  cases names with
  | nil => cases h
  | cons n rest =>
      rw [Entry.at?_cons, Option.bind_eq_some_iff] at h
      obtain ⟨e, he, hrest⟩ := h
      obtain ⟨es, hes, hfind⟩ := Entry.child?_eq_some_iff.mp he
      cases hes
      have hmem := Entry.mem_of_find? hfind
      simp only [pairEntries, List.mem_cons, List.not_mem_nil, or_false, Prod.mk.injEq] at hmem
      rcases hmem with ⟨rfl, rfl⟩ | ⟨rfl, rfl⟩
      · exact .inl (congrArg _ (Walk.isFolder_eq_false_of_at? hrest rfl))
      · exact .inr (congrArg _ (Walk.isFolder_eq_false_of_at? hrest rfl))

theorem plain_pair : ∀ names content,
    (Entry.folder pairEntries).at? names = some (.file content) → ∀ n ∈ names, '\\' ∉ n.toList := by
  intro names content h
  rcases names_pair h with rfl | rfl <;> decide

theorem segments_pair :
    Path.segments "a.js" = ["a.js"] ∧ Path.segments "b.js" = ["b.js"] := by decide

theorem importsIn_pair : importsIn "a.js" "require('./b')".toUTF8 = [⟨"./b", 1, .require⟩] ∧
    importsIn "b.js" ⟨#[0xff]⟩ = [] := by
  have hdecoded : decodeText ⟨#[0xff]⟩ = .error .invalidText := by decide
  refine ⟨?_, importsIn_of_error hdecoded⟩
  rw [importsIn, decodeText_toUTF8]
  decide +kernel

section

variable {reposDir : String}

theorem listing_pair (hr : ws.host.resolve root = .ok ⟨place, .folder pairEntries⟩) :
    (Source.builder (configAt reposDir)).discovery.listing ws.host root [] = ["a.js", "b.js"] := by
  have hmet : Walk.sightings Exclusions.standard [] (.folder pairEntries) =
      [.file ["a.js"], .file ["b.js"]] := by
    rw [Walk.sightings_of_sorted (by decide)]
    simp [pairEntries, Walk.sightingsAt, Entry.isFolder]
  rw [Discovery.listing_of_resolve rfl hr,
    show (Source.builder (configAt reposDir)).discovery.excluded = Exclusions.standard from rfl, hmet]
  cbv

/-- The graph of the two files, wherever they are checked out by a path that the host takes. -/
theorem buildGraph_pair (hwf : ws.host.root.WellFormed)
    (hroot : Checkout.localPath reposDir owner name = .ok root)
    (hr : ws.host.resolve root = .ok ⟨place, .folder pairEntries⟩)
    (hfits : Fits (Location.join root "a.js") ["a.js"]) :
    ∃ g, ((Source.builder (configAt reposDir)).buildGraph ws.host (.store reposDir) owner name
        none).value = .ok g ∧ g.ids = ["a.js", "b.js"] ∧
      g.outgoing "a.js" = [("b.js", .require)] ∧ g.outgoing "b.js" = [] := by
  have hsize : (configAt reposDir).graph.maxFileSize = 0 := rfl
  have hat : (Entry.folder pairEntries).at? (Path.segments "a.js") =
      some (.file "require('./b')".toUTF8) := by
    rw [segments_pair.1]
    rfl
  have hbt : (Entry.folder pairEntries).at? (Path.segments "b.js") = some (.file ⟨#[0xff]⟩) := by
    rw [segments_pair.2]
    rfl
  have hedges {file : String} {content : ByteArray} (hfile : file ∈ ["a.js", "b.js"])
      (hplain : Checkout.IsPlain file)
      (hat : (Entry.folder pairEntries).at? (Path.segments file) = some (.file content)) :
      ((Source.builder (configAt reposDir)).graphOf ws.host root ["a.js", "b.js"]).outgoing file = _ :=
    outgoing_graphOf_eq hsize hr (by decide) hfile hplain hat
  refine ⟨(Source.builder (configAt reposDir)).graphOf ws.host root ["a.js", "b.js"], ?_,
    GraphBuilder.ids_graphOf .., ?_, ?_⟩
  · rw [GraphBuilder.value_buildGraph_of_resolve hwf hroot hr, listing_pair hr]
  · rw [hedges (by decide) ⟨by decide, by decide, by decide⟩ hat, segments_pair.1, if_pos hfits,
      importsIn_pair.1, targetsOf, GraphBuilder.ids_graphOf,
      show (configAt reposDir).graph.resolutionOrder = .javascriptFirst from rfl]
    decide
  · rw [hedges (by decide) ⟨by decide, by decide, by decide⟩ hbt, importsIn_pair.2]
    split <;> rfl

end

def pairWorkspace : Workspace := { host := Checkout.shelfHost pairEntries, git := Git.absent }

theorem imports_agree_pair :
    ∃ g, ((Source.builder (configAt "/repos")).buildGraph pairWorkspace.host (.store "/repos") "o" "n"
        none).value = .ok g ∧
      g.outgoing "a.js" = [("b.js", .require)] ∧ g.outgoing "b.js" = [] ∧
      ∀ file ∈ ["a.js", "b.js"], ∃ r, AsksImports r "o" "n" file ∧
        Agrees (configAt "/repos") pairWorkspace g file r := by
  have hwf : pairWorkspace.host.root.WellFormed := Checkout.wellFormed_shelfHost wellFormed_pair
  have hr : pairWorkspace.host.resolve "/repos/o/n" = _ := Checkout.resolve_shelfHost pairEntries
  have hreal : pairWorkspace.host.canonicalize "/repos/o/n" = _ :=
    Checkout.canonicalize_shelfHost pairEntries
  obtain ⟨g, hg, hids, ha, hb⟩ := buildGraph_pair hwf Checkout.localPath_shelf hr (by decide)
  have hroot : Checkout.localPath (configAt "/repos").reposDir "o" "n" = .ok "/repos/o/n" :=
    Checkout.localPath_shelf
  obtain ⟨g', hg', _, hagrees⟩ := imports_agree hwf hroot hr linkFree_pair plain_pair rfl
    (asksGraph_getRequest (by decide) (by decide))
  obtain rfl := Except.ok.inj (hg'.symm.trans hg)
  have hpaths : ∀ file ∈ ["a.js", "b.js"],
      Fits (Location.join "/repos/o/n" file) (Path.segments file) ∧
        FitsBelow ["repos", "o", "n"] (Path.segments file) := by decide
  rw [hids] at hagrees
  refine ⟨g', hg, ha, hb, fun file hfile => ?_⟩
  obtain ⟨⟨r, hasks⟩, content, _, hall⟩ := hagrees file hfile
  obtain ⟨hwritten, hbelow⟩ := hpaths file hfile
  exact ⟨r, hasks, (hall r hasks).2 (iff_of_true hwritten ⟨_, hreal, hbelow⟩)⟩

/-! ### A checkout that is too deep for a real path -/

def deepFolders : List String := List.replicate 14 (longName 255)

/-- A link that leads down many folders to the directory of the checkouts. -/
def linkedHost : Host :=
  ⟨.folder [("l", .link (joinFields '/' (longName 255 :: deepFolders))),
    (longName 255, Entry.chain (deepFolders ++ ["o", longName 255]) (.folder pairEntries))], []⟩

theorem isEntryName_longName : IsEntryName (longName 255) := by
  have h : IsEntryName (longName 255 ++ "") := isEntryName_longName_append (by decide) (by decide)
  rwa [String.append_empty] at h

theorem isEntryName_deep : ∀ n ∈ longName 255 :: deepFolders, IsEntryName n := by
  intro n hn
  rw [deepFolders, ← List.replicate_succ] at hn
  exact List.eq_of_mem_replicate hn ▸ isEntryName_longName

theorem longName_ne_l : longName 255 ≠ "l" := by
  intro heq
  have hsize := utf8ByteSize_longName 255
  rw [heq] at hsize
  revert hsize
  decide

theorem wellFormed_linkedHost : linkedHost.root.WellFormed := by
  have hnames : ∀ n ∈ deepFolders ++ ["o", longName 255], IsEntryName n := by
    simp only [List.forall_mem_append, List.forall_mem_cons]
    exact ⟨fun n hn => isEntryName_deep n (List.mem_cons_of_mem _ hn), by decide,
      isEntryName_longName, by simp⟩
  refine .folder ?_ ?_ ?_
  · simpa using longName_ne_l.symm
  · simp only [List.forall_mem_cons]
    exact ⟨by decide, isEntryName_longName, by simp⟩
  · simp only [List.forall_mem_cons]
    exact ⟨.link _, Entry.wellFormed_chain hnames wellFormed_pair, by simp⟩

theorem at?_linked : linkedHost.root.at? (longName 255 :: deepFolders) =
    some (Entry.chain ["o", longName 255] (.folder pairEntries)) := by
  rw [linkedHost, Entry.at?_folder_cons, Entry.find?_cons, if_neg longName_ne_l.symm,
    Entry.find?_cons, if_pos rfl, Option.bind_some, Entry.chain_append, Entry.at?_chain]

theorem resolve_linked : linkedHost.resolve "/l" =
    .ok ⟨longName 255 :: deepFolders, Entry.chain ["o", longName 255] (.folder pairEntries)⟩ := by
  have hsegs : ∀ n ∈ longName 255 :: deepFolders, IsSegment n :=
    fun n hn => (isEntryName_deep n hn).toIsSegment
  have hshort : ∀ n ∈ longName 255 :: deepFolders, n.utf8ByteSize ≤ maxNameBytes := by
    intro n hn
    rw [deepFolders, ← List.replicate_succ] at hn
    rw [List.eq_of_mem_replicate hn, utf8ByteSize_longName]
    decide
  have hrelative : Location.isAbsolute (joinFields '/' (longName 255 :: deepFolders)) = false :=
    Location.isAbsolute_joinFields (List.cons_ne_nil _ _) hsegs
  have hchild : (current linkedHost.root []).child? "l" =
      some (.link (joinFields '/' (longName 255 :: deepFolders))) := rfl
  have hway : (advance linkedHost.root 39 [] (longName 255 :: deepFolders)).map
      (fun s => found linkedHost.root s.2) = _ :=
    advance_names hsegs at?_linked (by simp [Entry.chain])
  have hlink : advance linkedHost.root maxLinks [] ["", "l"] =
      advance linkedHost.root 39 [] (longName 255 :: deepFolders) := by
    rw [advance, if_neg (by simp [linkedHost, current, Entry.isFolder]), if_pos (by decide),
      maxLinks,
      advance_cons_link (by decide) hchild, if_neg (by decide), hrelative,
      Location.fields_joinFields_segments (List.cons_ne_nil _ _) hsegs, List.append_nil]
    rfl
  rw [resolve_eq, if_neg (by decide), if_neg (by decide), if_neg (by decide),
    show startTrail linkedHost "/l" = [] from rfl,
    show fields Location.isSlash "/l" = ["", "l"] from by decide, hlink, hway, if_pos hshort]
  rfl

def linkedRoot : String := Location.joinAll "/l" ["o", longName 255]

def linkedWorkspace : Workspace := { host := linkedHost, git := Git.absent }

theorem isAllBlank_longName {size : Nat} (hsize : 0 < size) :
    isAllBlank (longName size) = false := by
  obtain ⟨more, rfl⟩ := Nat.exists_eq_succ_of_ne_zero hsize.ne'
  rw [isAllBlank, longName, String.toList_ofList, List.replicate_succ, List.all_cons,
    show isBlank 'd' = false from by decide, Bool.false_and]

theorem isIdentity_linked : Checkout.IsIdentity "o" (longName 255) :=
  ⟨by decide, Checkout.isValidPart_longName (by decide)⟩

theorem localPath_linked : Checkout.localPath "/l" "o" (longName 255) = .ok linkedRoot :=
  Checkout.localPath_eq "/l" isIdentity_linked

theorem utf8ByteSize_linkedRoot : linkedRoot.utf8ByteSize ≤ 260 := by
  have hsize : linkedRoot.utf8ByteSize ≤ _ :=
    utf8ByteSize_joinAll_le (by decide) isIdentity_linked.isSegment
  rw [placeBytes_cons, placeBytes_cons, utf8ByteSize_longName] at hsize
  exact hsize

theorem resolve_linkedRoot : linkedHost.resolve linkedRoot =
    .ok ⟨(longName 255 :: deepFolders) ++ ["o", longName 255], .folder pairEntries⟩ := by
  have hfits : Fits (Location.joinAll "/l" ["o", longName 255]) ["o", longName 255] := by
    refine ⟨utf8ByteSize_linkedRoot.trans (by decide), ?_⟩
    rw [List.forall_mem_cons, List.forall_mem_singleton, utf8ByteSize_longName]
    decide
  rw [linkedRoot, resolve_joinAll_at resolve_linked isIdentity_linked.isEntryName
    (Entry.at?_chain _ _) (by simp), if_pos hfits]

theorem fits_linked : Fits (Location.join linkedRoot "a.js") ["a.js"] := by
  have hroot : linkedRoot ≠ "" := (resolve_ok resolve_linkedRoot).2.1
  have hsegs : ∀ n ∈ ["a.js"], IsSegment n := by decide
  have hsize := utf8ByteSize_joinAll_le hroot hsegs
  rw [Location.joinAll, List.foldl_cons, List.foldl_nil, placeBytes_cons, placeBytes_nil,
    show "a.js".utf8ByteSize = 4 from rfl] at hsize
  have hlength := utf8ByteSize_linkedRoot
  refine ⟨?_, by decide⟩
  rw [maxPathBytes]
  omega

/-- The real place of the checkout is too deep for an absolute path. -/
theorem canonicalize_linkedRoot : linkedHost.canonicalize linkedRoot = .error .nameTooLong := by
  cases hreal : linkedHost.canonicalize linkedRoot with
  | error cause =>
      rw [eq_nameTooLong_of_canonicalize ⟨_, rfl⟩ resolve_linkedRoot hreal]
  | ok f =>
      have habsolute : Location.isAbsolute linkedRoot = true :=
        Location.isAbsolute_joinAll "/l" (by simp) isIdentity_linked.isSegment
      have hshort := placeBytes_of_canonicalize habsolute hreal
      rw [eq_of_canonicalize_of_resolve resolve_linkedRoot hreal, deepFolders,
        ← List.replicate_succ, placeBytes_append, placeBytes_replicate, placeBytes_cons,
        placeBytes_cons, utf8ByteSize_longName, maxPathBytes] at hshort
      omega

/-- Through a link, the builder reads a file by a short path that has no real path, and a request
for its imports fails. -/
theorem disagree_linked :
    linkedHost.root.WellFormed ∧ (Entry.folder pairEntries).LinkFree ∧
    (∀ names content, (Entry.folder pairEntries).at? names = some (.file content) →
      ∀ n ∈ names, '\\' ∉ n.toList) ∧
    Checkout.localPath "/l" "o" (longName 255) = .ok linkedRoot ∧
    linkedHost.resolve linkedRoot =
      .ok ⟨(longName 255 :: deepFolders) ++ ["o", longName 255], .folder pairEntries⟩ ∧
    ∃ g r r', AsksGraph r "o" (longName 255) ∧
      (Api.respond (configAt "/l") linkedWorkspace r).value = (linkedWorkspace,
        (Response.ofJson 200 (GraphResponse.ofGraph "o" (longName 255) none g).toJson).open) ∧
      "a.js" ∈ g.ids ∧ AsksImports r' "o" (longName 255) "a.js" ∧
      ¬ Agrees (configAt "/l") linkedWorkspace g "a.js" r' := by
  obtain ⟨g, hg, hids, hedges, _⟩ : ∃ g, ((Source.builder (configAt "/l")).buildGraph
      linkedWorkspace.host (.store (configAt "/l").reposDir) "o" (longName 255) none).value = .ok g ∧ _ :=
    buildGraph_pair wellFormed_linkedHost localPath_linked resolve_linkedRoot fits_linked
  have howner : isAllBlank "o" = false := by decide
  have hname : isAllBlank (longName 255) = false := isAllBlank_longName (by decide)
  have hgraph := asksGraph_getRequest howner hname
  have hasks := asksImports_getRequest howner hname (show isAllBlank "a.js" = false by decide)
  have hplain : Checkout.IsPlain "a.js" := ⟨by decide, by decide, by decide⟩
  have hanswer := value_respond_imports hasks (configAt "/l") linkedWorkspace
  have hread : Checkout.readSource (configAt "/l").reposDir linkedWorkspace.host "o" (longName 255)
      "a.js" = _ := hplain.readSource_of_error localPath_linked canonicalize_linkedRoot
  rw [hread] at hanswer
  refine ⟨wellFormed_linkedHost, linkFree_pair, plain_pair, localPath_linked, resolve_linkedRoot, g,
    _, _, hgraph, ?_, by rw [hids]; decide, hasks, ?_⟩
  · rw [value_respond_graph hgraph, hg]
  · rintro (⟨report, hok, _⟩ | ⟨_, hnone⟩)
    · rw [hanswer] at hok
      have hstatus : 400 = 200 := congrArg (fun answer => answer.2.status) hok
      cases hstatus
    · rw [hedges] at hnone
      cases hnone

end ImportAtlas.Http
