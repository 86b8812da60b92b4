import RustZero.Lib.LinkTree
import RustZero.Lib.Separated
import RustZero.Lib.Utf8

/-!
# Static assets

`StaticAssets` of `rest/src/static_assets.rs`, with the paths of Unix.

* `normalizePath_eq`: a path is normalised to its segments.
* What the operating system does with paths is a `FileSystem`; `Describes` says what it is promised
  to do on a tree of directories, files and links.
-/

namespace RustZero.Assets

open Lib Std

/-! ## Normalised paths -/

/-- `std::path::Component`; there are no prefixes on Unix. -/
inductive Component
  | rootDir
  | curDir
  | parentDir
  | normal (value : List Char)
  deriving DecidableEq, Repr

def component? (part : List Char) : Option Component :=
  if part = [] ∨ part = ['.'] then none
  else if part = ['.', '.'] then some .parentDir
  else some (.normal part)

/-- `Path::components`: a dot is a component only at the beginning. -/
def components (path : List Char) : List Component :=
  let parts := path.splitOn '/'
  let start : List Component :=
    if path.head? = some '/' then [.rootDir]
    else if parts.head? = some ['.'] then [.curDir]
    else []
  start ++ parts.filterMap component?

/-- A turn of the loop over the components. -/
def pushComponent (normalized : List (List Char)) : Component → Option (List (List Char))
  | .normal value => some (normalized ++ [value])
  | .curDir => some normalized
  | .parentDir | .rootDir => none

def normalizePath (path : String) : Option String :=
  if path.toList.contains '\x00' || path.toList.contains '\\' then none
  else
    let path := path.toList.dropWhile (· = '/')
    ((components path).foldlM pushComponent []).map fun normalized =>
      String.ofList (['/'].intercalate normalized)

/-- The segments of a path, without the empty ones between slashes and without dots. -/
def segments (path : String) : List (List Char) :=
  (path.toList.splitOn '/').filter fun part => part ≠ [] ∧ part ≠ ['.']

section Normalized

variable {path other : String} {parts : List (List Char)}

theorem foldlM_component (normalized parts : List (List Char)) :
    (parts.filterMap component?).foldlM pushComponent normalized =
      if ['.', '.'] ∈ parts then none
      else some (normalized ++ parts.filter fun part => part ≠ [] ∧ part ≠ ['.']) := by
  induction parts generalizing normalized with
  | nil => simp
  | cons part parts ih =>
      by_cases dropped : part = [] ∨ part = ['.']
      · have skipped : component? part = none := if_pos dropped
        have differs : ['.', '.'] ≠ part := by
          intro same
          rw [← same] at dropped
          simp at dropped
        have filtered : ¬(part ≠ [] ∧ part ≠ ['.']) := by tauto
        rw [List.filterMap_cons_none skipped, ih, List.filter_cons_of_neg (by simpa using filtered)]
        simp [differs]
      · have kept : part ≠ [] ∧ part ≠ ['.'] := by tauto
        by_cases up : part = ['.', '.']
        · have found : component? part = some .parentDir := by
            rw [component?, if_neg dropped, if_pos up]
          rw [List.filterMap_cons_some found, List.foldlM_cons, if_pos (up ▸ List.mem_cons_self)]
          rfl
        · have found : component? part = some (.normal part) := by
            rw [component?, if_neg dropped, if_neg up]
          rw [List.filterMap_cons_some found, List.foldlM_cons, pushComponent, Option.bind_eq_bind,
            Option.bind_some, ih, List.filter_cons_of_pos (by simpa using kept)]
          simp [Ne.symm up]

theorem dots_mem_filter : ['.', '.'] ∈ parts.filter (fun part => part ≠ [] ∧ part ≠ ['.']) ↔
    ['.', '.'] ∈ parts := by
  rw [List.mem_filter]
  simp

theorem components_foldlM {list : List Char} (relative : list.head? ≠ some '/') :
    (components list).foldlM pushComponent [] =
      if ['.', '.'] ∈ list.splitOn '/' then none
      else some ((list.splitOn '/').filter fun part => part ≠ [] ∧ part ≠ ['.']) := by
  rw [components, if_neg relative]
  split
  case isTrue => exact foldlM_component [] _
  case isFalse => exact foldlM_component [] _

/-- Slashes at the beginning only make empty segments. -/
theorem splitOn_dropWhile (list : List Char) :
    ((list.dropWhile (· = '/')).splitOn '/').filter (fun part => part ≠ [] ∧ part ≠ ['.']) =
      (list.splitOn '/').filter fun part => part ≠ [] ∧ part ≠ ['.'] := by
  induction list with
  | nil => rfl
  | cons character list ih =>
      by_cases slash : character = '/'
      · have split_ : (character :: list).splitOn '/' = [] :: list.splitOn '/' := by
          rw [slash, List.splitOn_cons_eq_if_modifyHead]
          rfl
        rw [List.dropWhile_cons_of_pos (by simpa using slash), ih, split_,
          List.filter_cons_of_neg (by simp)]
      · rw [List.dropWhile_cons_of_neg (by simpa using slash)]

/-- A path is normalised to its segments, if none of them leads out of it. -/
theorem normalizePath_eq (path : String) : normalizePath path =
    if '\x00' ∈ path.toList ∨ '\\' ∈ path.toList ∨ ['.', '.'] ∈ segments path then none
    else some (String.ofList (['/'].intercalate (segments path))) := by
  have relative : (path.toList.dropWhile (· = '/')).head? ≠ some '/' := by
    intro slash
    have stops := List.head?_dropWhile_not (fun character => decide (character = '/')) path.toList
    rw [slash] at stops
    cases stops
  have read : (components (path.toList.dropWhile (· = '/'))).foldlM pushComponent [] =
      if ['.', '.'] ∈ segments path then none else some (segments path) := by
    have dots : ['.', '.'] ∈ (path.toList.dropWhile (· = '/')).splitOn '/' ↔
        ['.', '.'] ∈ segments path := by
      rw [← dots_mem_filter, splitOn_dropWhile]
      rfl
    rw [components_foldlM relative, splitOn_dropWhile, if_congr dots rfl rfl]
    rfl
  rw [normalizePath]
  dsimp only
  rw [read]
  by_cases refused : '\x00' ∈ path.toList ∨ '\\' ∈ path.toList
  · rw [if_pos (by simpa using refused), if_pos (by tauto)]
  · rw [if_neg (by simpa using refused)]
    by_cases up : ['.', '.'] ∈ segments path
    · rw [if_pos up, if_pos (by tauto)]
      rfl
    · rw [if_neg up, if_neg (by tauto)]
      rfl

/-- A component of a normalised path. -/
structure Plain (part : List Char) : Prop where
  nonempty : part ≠ []
  notDot : part ≠ ['.']
  notDots : part ≠ ['.', '.']
  unseparated : '/' ∉ part

theorem segments_unseparated {part : List Char} (member : part ∈ segments path) :
    part ≠ [] ∧ part ≠ ['.'] ∧ '/' ∉ part := by
  rw [segments, List.mem_filter, decide_eq_true_iff] at member
  exact ⟨member.2.1, member.2.2, not_mem_of_mem_splitOn member.1⟩

/-- Plain components are the segments of the path that they make. -/
theorem segments_intercalate (plain : ∀ part ∈ parts, Plain part) :
    segments (String.ofList (['/'].intercalate parts)) = parts := by
  rw [segments, String.toList_ofList]
  cases parts with
  | nil => rfl
  | cons first parts =>
      rw [List.splitOn_intercalate '/' (fun part member => (plain part member).unseparated)
        (List.cons_ne_nil _ _), List.filter_eq_self]
      intro part member
      exact decide_eq_true ⟨(plain part member).nonempty, (plain part member).notDot⟩

theorem normalizePath_eq_some {normalized : String} : normalizePath path = some normalized ↔
    ('\x00' ∉ path.toList ∧ '\\' ∉ path.toList ∧ ['.', '.'] ∉ segments path) ∧
      String.ofList (['/'].intercalate (segments path)) = normalized := by
  rw [normalizePath_eq]
  split
  case isTrue refused =>
    refine iff_of_false (fun same => by cases same) ?_
    tauto
  case isFalse accepted =>
    rw [Option.some.injEq]
    tauto

theorem segments_plain (free : ['.', '.'] ∉ segments path) :
    ∀ part ∈ segments path, Plain part := by
  intro part member
  obtain ⟨nonempty, notDot, unseparated⟩ := segments_unseparated member
  exact ⟨nonempty, notDot, fun dots => free (dots ▸ member), unseparated⟩

/-- The characters of a path other than slashes and dots are those of its segments. -/
theorem mem_segments {character : Char} (slash : character ≠ '/') (dot : character ≠ '.') :
    character ∈ path.toList ↔ ∃ part ∈ segments path, character ∈ part := by
  have joined : ['/'].intercalate (path.toList.splitOn '/') = path.toList :=
    List.intercalate_splitOn '/'
  refine ⟨?_, ?_⟩
  · intro inside
    rw [← joined] at inside
    rcases mem_intercalate inside with same | ⟨part, member, inside⟩
    · exact absurd same slash
    · refine ⟨part, List.mem_filter.mpr ⟨member, decide_eq_true ⟨?_, ?_⟩⟩, inside⟩
      · exact List.ne_nil_of_mem inside
      · intro same
        rw [same, List.mem_singleton] at inside
        exact dot inside
  · intro found
    obtain ⟨part, member, inside⟩ := found
    rw [← joined]
    exact mem_intercalate_of_mem (List.mem_filter.mp member).1 inside

/-- Paths that differ in repeated slashes and dots only are normalised alike. -/
theorem normalizePath_congr (same : segments path = segments other) :
    normalizePath path = normalizePath other := by
  have letters {character : Char} (slash : character ≠ '/') (dot : character ≠ '.') :
      character ∈ path.toList ↔ character ∈ other.toList := by
    rw [mem_segments slash dot, mem_segments slash dot, same]
  rw [normalizePath_eq, normalizePath_eq, same]
  refine if_congr (or_congr (letters ?_ ?_) (or_congr_left (letters ?_ ?_))) rfl rfl
  · decide
  · decide
  · decide
  · decide

/-- A normalised path is its plain components. -/
theorem normalizePath_plain {normalized : String} (read : normalizePath path = some normalized) :
    normalized = String.ofList (['/'].intercalate (segments path)) ∧
      ∀ part ∈ segments path, Plain part := by
  obtain ⟨⟨_, _, free⟩, same⟩ := normalizePath_eq_some.mp read
  exact ⟨same.symm, segments_plain free⟩

theorem normalizePath_idempotent {normalized : String}
    (read : normalizePath path = some normalized) : normalizePath normalized = some normalized := by
  obtain ⟨⟨zero, backslash, free⟩, _⟩ := normalizePath_eq_some.mp read
  obtain ⟨same, plain⟩ := normalizePath_plain read
  have kept : segments normalized = segments path := by
    rw [same]
    exact segments_intercalate plain
  rw [normalizePath_congr kept, read]

end Normalized

/-! ## Assets -/

abbrev Bytes := List UInt8

structure EmbeddedAsset where
  body : Bytes
  contentType : String
  deriving DecidableEq, Repr

/-- The content type is inferred from the request. -/
def EmbeddedAsset.inferred (body : Bytes) : EmbeddedAsset :=
  ⟨body, ""⟩

/-- A file name of Unix. -/
structure Name where
  bytes : Bytes
  nonempty : bytes ≠ []
  notDot : bytes ≠ [46]
  notDots : bytes ≠ [46, 46]
  unseparated : 47 ∉ bytes
  deriving DecidableEq

/-- A path as it is given to the operating system. -/
abbrev Path := Bytes

/-- A path that `canonicalize` returns, as the names in it. -/
abbrev RealPath := List Name

def RealPath.path (real : RealPath) : Path :=
  47 :: [47].intercalate (real.map Name.bytes)

/-- `PathBuf::join`: a path from the top replaces the other one. -/
def join (base path : Path) : Path :=
  if path.head? = some 47 then path
  else if base = [] ∨ base.getLast? = some 47 then base ++ path
  else base ++ 47 :: path

structure Metadata where
  isFile : Bool
  isDir : Bool

/-- The operations of the file system; `none` is an error. -/
structure FileSystem where
  canonicalize : Path → Option RealPath
  metadata : Path → Option Metadata
  read : Path → Option Bytes

inductive StaticAssetsError
  | directory (path : Path)
  | invalidPath (path : String)
  | duplicatePath (path : String)
  | invalidIndex
  deriving DecidableEq, Repr

/-- The stored paths and the name of the index are normalised. -/
structure StaticAssets where
  directory : Option RealPath
  embedded : ExtTreeMap String EmbeddedAsset
  indexFile : String
  embedded_valid : ∀ path ∈ embedded, normalizePath path = some path
  indexFile_valid : normalizePath indexFile = some indexFile ∧ '/' ∉ indexFile.toList

theorem index_html_valid :
    normalizePath "index.html" = some "index.html" ∧ '/' ∉ "index.html".toList := by
  decide +kernel

namespace StaticAssets

def default : StaticAssets where
  directory := none
  embedded := ∅
  indexFile := "index.html"
  embedded_valid _ member := absurd member ExtTreeMap.not_mem_empty
  indexFile_valid := index_html_valid

/-- `StaticAssets::directory`. -/
def ofDirectory (fs : FileSystem) (root : Path) : Except StaticAssetsError StaticAssets :=
  match fs.canonicalize root with
  | none => .error (.directory root)
  | some canonical =>
      if (fs.metadata canonical.path).any Metadata.isDir then
        .ok { default with directory := some canonical }
      else .error (.directory root)

theorem insert_valid {self : StaticAssets} {path normalized : String} {asset : EmbeddedAsset}
    (read : normalizePath path = some normalized) :
    ∀ path ∈ self.embedded.insert normalized asset, normalizePath path = some path := by
  intro other member
  rcases ExtTreeMap.mem_insert.mp member with same | earlier
  · rw [← LawfulEqCmp.eq_of_compare same]
    exact normalizePath_idempotent read
  · exact self.embedded_valid other earlier

/-- A path that is stored already is an error. -/
def insert (self : StaticAssets) (path : String) (asset : EmbeddedAsset) :
    Except StaticAssetsError StaticAssets :=
  match read : normalizePath path with
  | none => .error (.invalidPath path)
  | some normalized =>
      if normalized ∈ self.embedded then .error (.duplicatePath normalized)
      else
        .ok { self with
          embedded := self.embedded.insert normalized asset
          embedded_valid := insert_valid read }

/-- `StaticAssets::embedded`. -/
def ofEmbedded (assets : List (String × EmbeddedAsset)) : Except StaticAssetsError StaticAssets :=
  assets.foldlM (fun fallback entry => fallback.insert entry.1 entry.2) default

def withEmbedded (self : StaticAssets) (path : String) (asset : EmbeddedAsset) :
    Except StaticAssetsError StaticAssets :=
  self.insert path asset

def withIndexFile (self : StaticAssets) (indexFile : String) :
    Except StaticAssetsError StaticAssets :=
  if valid : normalizePath indexFile = some indexFile ∧ '/' ∉ indexFile.toList then
    .ok { self with indexFile, indexFile_valid := valid }
  else .error .invalidIndex

end StaticAssets

/-! ## Requests -/

inductive Method
  | get
  | head
  | other (name : String)
  deriving DecidableEq, Repr

structure Request where
  method : Method
  path : String
  deriving DecidableEq, Repr

structure Response where
  status : Nat
  contentType : Option String
  contentLength : Option Nat
  body : Bytes
  deriving DecidableEq, Repr

def notFound : Response :=
  ⟨404, none, none, []⟩

def response (method : Method) (body : Bytes) (contentType : String) : Response :=
  ⟨200, some contentType, some body.length, if method = .head then [] else body⟩

/-- `Path::extension`: what follows the last dot of the file name, unless that dot comes first. -/
def extension (path : String) : Option String :=
  match (components path.toList).getLast? with
  | some (.normal name) =>
      match name.reverse.dropWhile (· ≠ '.') with
      | [] => none
      | [_] => none
      | _ => some (String.ofList (name.reverse.takeWhile (· ≠ '.')).reverse)
  | _ => none

def contentType (path : String) : String :=
  match (extension path).map String.toLower with
  | some "html" | some "htm" => "text/html; charset=utf-8"
  | some "css" => "text/css; charset=utf-8"
  | some "js" | some "mjs" => "text/javascript; charset=utf-8"
  | some "json" | some "map" => "application/json"
  | some "txt" => "text/plain; charset=utf-8"
  | some "svg" => "image/svg+xml"
  | some "png" => "image/png"
  | some "jpg" | some "jpeg" => "image/jpeg"
  | some "gif" => "image/gif"
  | some "webp" => "image/webp"
  | some "ico" => "image/x-icon"
  | some "woff" => "font/woff"
  | some "woff2" => "font/woff2"
  | some "wasm" => "application/wasm"
  | some "xml" => "application/xml"
  | some "pdf" => "application/pdf"
  | _ => "application/octet-stream"

namespace StaticAssets

/-- The normalised path, with the index file for a request of a directory. -/
def requestedPath (self : StaticAssets) (requestPath normalized : String) : String :=
  if requestPath.toList.getLast? = some '/' ∨ normalized = "" then
    (if normalized ≠ "" then normalized ++ "/" else normalized) ++ self.indexFile
  else normalized

/-- The answer with a stored asset. -/
def answer (method : Method) (path : String) (asset : EmbeddedAsset) : Response :=
  response method asset.body
    (if asset.contentType = "" then Assets.contentType path else asset.contentType)

/-- The answer from the directory. -/
def serveFile (self : StaticAssets) (fs : FileSystem) (method : Method) (path : String) :
    Response :=
  match self.directory with
  | none => notFound
  | some root =>
      match fs.canonicalize (join root.path (utf8 path)) with
      | none => notFound
      | some canonical =>
          if ¬root.isPrefixOf canonical then notFound
          else
            match fs.metadata canonical.path with
            | none => notFound
            | some metadata =>
                if ¬metadata.isFile then notFound
                else
                  match fs.read canonical.path with
                  | some body => response method body (Assets.contentType path)
                  | none => notFound

def serve (self : StaticAssets) (fs : FileSystem) (request : Request) : Response :=
  if request.method ≠ .get ∧ request.method ≠ .head then notFound
  else
    match normalizePath request.path with
    | none => notFound
    | some normalized =>
        let path := self.requestedPath request.path normalized
        match self.embedded[path]? with
        | some asset => answer request.method path asset
        | none => self.serveFile fs request.method path

end StaticAssets

/-! ## Trees of files and links -/

/-- A part of a path that leads somewhere; empty parts do not. -/
def part? (bytes : Bytes) : Option (PathPart Name) :=
  if valid : bytes ≠ [] ∧ bytes ≠ [46] ∧ bytes ≠ [46, 46] ∧ 47 ∉ bytes then
    some (.name ⟨bytes, valid.1, valid.2.1, valid.2.2.1, valid.2.2.2⟩)
  else if bytes = [46] then some .current
  else if bytes = [46, 46] then some .parent
  else none

def pathParts (path : Path) : List (PathPart Name) :=
  (path.splitOn 47).filterMap part?

abbrev Tree := LinkTree Name Bytes

/-- What is promised of the operations for paths from the top: `canonicalize` returns the real path,
and the others follow the path to where it leads. -/
structure Describes (tree : Tree) (fs : FileSystem) : Prop where
  canonicalize : ∀ path real, path.head? = some 47 → fs.canonicalize path = some real →
    tree.Resolves [] (pathParts path) real
  metadata : ∀ path metadata, path.head? = some 47 → fs.metadata path = some metadata →
    ∃ real, tree.Resolves [] (pathParts path) real ∧
      (metadata.isFile = true → ∃ content, tree real = some (.file content))
  read : ∀ path bytes, path.head? = some 47 → fs.read path = some bytes →
    ∃ real, tree.Resolves [] (pathParts path) real ∧
      ∀ content, tree real = some (.file content) → bytes = content

/-- The body is that of a regular file whose real path is in the directory. -/
def InDirectory (tree : Tree) (assets : StaticAssets) (body : Bytes) : Prop :=
  ∃ root real, assets.directory = some root ∧ root <+: real ∧ tree.Real real ∧
    tree real = some (.file body)

section Serving

variable {tree : Tree} {fs : FileSystem} {assets : StaticAssets}

theorem part?_name (name : Name) : part? name.bytes = some (.name name) :=
  dif_pos ⟨name.nonempty, name.notDot, name.notDots, name.unseparated⟩

/-- A real path is read as the names in it. -/
theorem pathParts_path (real : RealPath) : pathParts real.path = real.map .name := by
  have top : real.path.splitOn 47 = [] :: ([47].intercalate (real.map Name.bytes)).splitOn 47 := by
    rw [RealPath.path, List.splitOn_cons_eq_if_modifyHead]
    rfl
  have empty : part? [] = none := rfl
  rw [pathParts, top, List.filterMap_cons_none empty]
  cases real with
  | nil => rfl
  | cons first real =>
      have unseparated : ∀ bytes ∈ (first :: real).map Name.bytes, 47 ∉ bytes := by
        intro bytes member
        obtain ⟨name, _, same⟩ := List.mem_map.mp member
        rw [← same]
        exact name.unseparated
      rw [List.splitOn_intercalate 47 unseparated (by simp), List.filterMap_map,
        ← List.filterMap_eq_map]
      exact List.filterMap_congr fun name _ => part?_name name

theorem join_absolute (root : RealPath) (path : Path) : (join root.path path).head? = some 47 := by
  rw [join]
  split
  case isTrue absolute => exact absolute
  case isFalse =>
    split
    · rfl
    · rfl

/-- What `canonicalize` returns is a real path, and leads to itself. -/
theorem canonical_real (describes : Describes tree fs) {root canonical : RealPath} {path : Path}
    (canonicalized : fs.canonicalize (join root.path path) = some canonical) :
    tree.Real canonical := by
  have resolves := describes.canonicalize _ _ (join_absolute root path) canonicalized
  exact resolves.isReal LinkTree.real_nil

/-- What is read at a real path is the content of the file there. -/
theorem canonical_file (describes : Describes tree fs) {root canonical : RealPath} {path : Path}
    {metadata : Metadata} {body : Bytes}
    (canonicalized : fs.canonicalize (join root.path path) = some canonical)
    (measured : fs.metadata canonical.path = some metadata) (regular : metadata.isFile = true)
    (contents : fs.read canonical.path = some body) : tree canonical = some (.file body) := by
  have own : tree.Resolves [] (pathParts canonical.path) canonical := by
    rw [pathParts_path]
    exact (canonical_real describes canonicalized).resolves
  obtain ⟨measuredAt, resolves, file⟩ := describes.metadata _ _ rfl measured
  obtain ⟨readAt, resolves', content_eq⟩ := describes.read _ _ rfl contents
  rw [resolves.unique own] at file
  rw [resolves'.unique own] at content_eq
  obtain ⟨content, there⟩ := file regular
  rw [content_eq content there]
  exact there

theorem serveFile_inside (describes : Describes tree fs) (method : Method) (path : String) :
    assets.serveFile fs method path = notFound ∨ ∃ body, InDirectory tree assets body ∧
      assets.serveFile fs method path = response method body (contentType path) := by
  rw [StaticAssets.serveFile]
  cases directory : assets.directory with
  | none => exact .inl rfl
  | some root =>
      dsimp only
      cases canonicalized : fs.canonicalize (join root.path (utf8 path)) with
      | none => exact .inl rfl
      | some canonical =>
          dsimp only
          split
          case isTrue => exact .inl rfl
          case isFalse inside =>
            cases measured : fs.metadata canonical.path with
            | none => exact .inl rfl
            | some metadata =>
                dsimp only
                split
                case isTrue => exact .inl rfl
                case isFalse regular =>
                  cases contents : fs.read canonical.path with
                  | none => exact .inl rfl
                  | some body =>
                      refine .inr ⟨body, ⟨root, canonical, directory, ?_, ?_, ?_⟩, rfl⟩
                      · exact List.isPrefixOf_iff_prefix.mp (not_not.mp inside)
                      · exact canonical_real describes canonicalized
                      · exact canonical_file describes canonicalized measured
                          (not_not.mp regular) contents

/-- The operations on a tree, where a walk of more steps fails. -/
def FileSystem.ofTree (tree : Tree) (steps : Nat) : FileSystem where
  canonicalize path := tree.walk steps [] (pathParts path)
  metadata path := (tree.walk steps [] (pathParts path)).map fun real =>
    match tree real with
    | some (.file _) => ⟨true, false⟩
    | some .directory => ⟨false, true⟩
    | some _ => ⟨false, false⟩
    | none => ⟨false, real = []⟩
  read path := (tree.walk steps [] (pathParts path)).bind fun real =>
    match tree real with
    | some (.file content) => some content
    | _ => none

theorem describes_ofTree (tree : Tree) (steps : Nat) :
    Describes tree (FileSystem.ofTree tree steps) where
  canonicalize path real _ walked := LinkTree.walk_resolves walked
  metadata path metadata _ measured := by
    obtain ⟨real, walked, same⟩ := Option.map_eq_some_iff.mp measured
    refine ⟨real, LinkTree.walk_resolves walked, ?_⟩
    intro regular
    subst same
    split at regular
    case h_1 content there => exact ⟨content, there⟩
    case h_2 => cases regular
    case h_3 => cases regular
    case h_4 => cases regular
  read path bytes _ contents := by
    obtain ⟨real, walked, same⟩ := Option.bind_eq_some_iff.mp contents
    refine ⟨real, LinkTree.walk_resolves walked, ?_⟩
    intro content there
    rw [there] at same
    exact (Option.some.inj same).symm

theorem serve_embedded {request : Request} {normalized : String} {asset : EmbeddedAsset}
    (method : request.method = .get ∨ request.method = .head)
    (read : normalizePath request.path = some normalized)
    (stored : assets.embedded[assets.requestedPath request.path normalized]? = some asset) :
    assets.serve fs request = StaticAssets.answer request.method
      (assets.requestedPath request.path normalized) asset := by
  rw [StaticAssets.serve, if_neg (by tauto), read]
  dsimp only
  rw [stored]

/-- What is served is a stored asset or, if there is none, a file in the directory. -/
theorem serve_cases (describes : Describes tree fs) (request : Request) :
    assets.serve fs request = notFound ∨
      ∃ normalized path, normalizePath request.path = some normalized ∧
        path = assets.requestedPath request.path normalized ∧
        ((∃ asset, assets.embedded[path]? = some asset ∧
          assets.serve fs request = StaticAssets.answer request.method path asset) ∨
        (assets.embedded[path]? = none ∧ ∃ body, InDirectory tree assets body ∧
          assets.serve fs request = response request.method body (contentType path))) := by
  by_cases method : request.method ≠ .get ∧ request.method ≠ .head
  · left
    rw [StaticAssets.serve, if_pos method]
  · cases read : normalizePath request.path with
    | none =>
        left
        rw [StaticAssets.serve, if_neg method, read]
    | some normalized =>
        cases stored : assets.embedded[assets.requestedPath request.path normalized]? with
        | some asset =>
            refine .inr ⟨normalized, _, rfl, rfl, .inl ⟨asset, stored, ?_⟩⟩
            exact serve_embedded (by tauto) read stored
        | none =>
            have served : assets.serve fs request = assets.serveFile fs request.method
                (assets.requestedPath request.path normalized) := by
              rw [StaticAssets.serve, if_neg method, read]
              dsimp only
              rw [stored]
            rw [served]
            refine (serveFile_inside describes _ _).imp_right fun found => ?_
            exact ⟨normalized, _, rfl, rfl, .inr ⟨stored, found⟩⟩

end Serving

/-! ## A site -/

theorem letter_plain (index : Fin 26) :
    97 + UInt8.ofNat index ≠ 46 ∧ 97 + UInt8.ofNat index ≠ 47 := by
  revert index
  decide

/-- A name of one letter. -/
def letter (index : Fin 26) : Name where
  bytes := [97 + UInt8.ofNat index]
  nonempty := List.cons_ne_nil _ _
  notDot same := (letter_plain index).1 (List.cons.inj same).1
  notDots same := List.cons_ne_nil _ _ (List.cons.inj same).2.symm
  unseparated member := (letter_plain index).2 (List.mem_singleton.mp member).symm

/-- A directory `s` with a file `d` and a link `e` to a file `x` outside. -/
def siteTree : Tree := fun location =>
  if location = [letter 18] then some .directory
  else if location = [letter 18, letter 3] then some (.file [123, 125])
  else if location = [letter 18, letter 4] then
    some (.link ⟨true, [.name (letter 23)]⟩)
  else if location = [letter 23] then some (.file [33])
  else none

def siteAssets : StaticAssets :=
  { StaticAssets.default with directory := some [letter 18] }

example : siteAssets.serve (.ofTree siteTree 40) ⟨.get, "/./d"⟩ =
      response .get [123, 125] "application/octet-stream" ∧
    siteAssets.serve (.ofTree siteTree 40) ⟨.get, "/e"⟩ = notFound := by
  decide +kernel

end RustZero.Assets
