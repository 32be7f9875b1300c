import Mathlib.Data.Char
import Mathlib.Data.List.Lex
import Mathlib.Data.List.Sort

/-! # Image tags (images.py:26-52)

The tag of a service image is the beginning of a hash over its source files: the path and the
contents of each, one after the other, with nothing in between. Paths are sorted part by part; how
two parts compare depends on the system (`Platform`). Line endings are normalised, and files below
`bin` and `obj` are left out.

Since nothing separates a path from contents, a text can move from the end of the one to the beginning
of the other and the stream stays the same (`stream_eq_of_path`, `stream_eq_of_content`). Two trees of
which this is not so are told apart (`told_apart_unless_moved`).
-/

namespace TxPlatform

namespace ImageTags

/-- A name or a path as its characters. -/
abbrev Text := List Char

abbrev Bytes := List UInt8

/-- `str.encode()`. -/
def utf8 (text : Text) : Bytes := text.flatMap String.utf8EncodeChar

/-- `data.replace(b"\r\n", b"\n")`. -/
def normalize : Bytes → Bytes
  | [] => []
  | [c] => [c]
  | c :: d :: rest => if c = 13 ∧ d = 10 then 10 :: normalize rest else c :: normalize (d :: rest)

/-! ## Source trees -/

/-- A file below a folder: the parts of its path in there. -/
structure SourceFile where
  parts : List Text
  content : Bytes
  nonempty : parts ≠ []
  noSlash : ∀ part ∈ parts, '/' ∉ part

/-- The files below a folder, in the order in which the system lists them. -/
structure Folder where
  files : List SourceFile
  distinct : (files.map (·.parts)).Nodup

/-- `_SHARED_INPUTS`. -/
inductive SharedInput where
  | globalJson
  | directoryBuildProps
  | directoryPackagesProps
  | dockerignore
  | dockerfile
  deriving DecidableEq

namespace SharedInput

def path : SharedInput → Text
  | globalJson => "global.json".toList
  | directoryBuildProps => "Directory.Build.props".toList
  | directoryPackagesProps => "Directory.Packages.props".toList
  | dockerignore => ".dockerignore".toList
  | dockerfile => "src/Dockerfile".toList

def all : List SharedInput := [globalJson, directoryBuildProps, directoryPackagesProps, dockerignore, dockerfile]

theorem mem_all (input : SharedInput) : input ∈ all := by cases input <;> simp [all]

end SharedInput

structure SourceTree where
  shared : SharedInput → Bytes
  serviceDefaults : Folder
  projectFolder : Folder

/-- A folder below `src` other than `ServiceDefaults`. -/
structure Project where
  name : Text
  noSlash : '/' ∉ name
  notDefaults : name ≠ "ServiceDefaults".toList

/-! ## The tag -/

/-- What a system compares names by: the name itself, or the name in lower case (`str.lower`). Either
way a name comes before the names that begin with it. -/
structure Platform where
  partKey : Text → Text
  prefix_lt : ∀ {x y : Text}, x <+: y → x ≠ y → partKey x < partKey y

/-- What paths are compared by. -/
def Platform.key (platform : Platform) (parts : List Text) : List Text := parts.map platform.partKey

theorem lt_of_prefix {x y : Text} (h : x <+: y) (hne : x ≠ y) : x < y := by
  obtain ⟨rest, rfl⟩ := h
  induction x with
  | nil =>
    cases rest with
    | nil => exact absurd rfl hne
    | cons c rest => exact List.nil_lt_cons c rest
  | cons c x ih =>
    rw [List.cons_append] at hne ⊢
    exact List.cons_lt_cons_self.2 (ih fun h => hne (by rw [← h]))

def linux : Platform := ⟨fun name => name, lt_of_prefix⟩

def ignoredDirectories : List Text := ["bin".toList, "obj".toList]

def isSource (file : SourceFile) : Bool := !file.parts.any fun part => part ∈ ignoredDirectories

def sortBy {α κ : Type} [LinearOrder κ] (key : α → κ) (items : List α) : List α :=
  items.insertionSort fun a b => key a ≤ key b

/-- `_source_files`. -/
def sourceFiles (platform : Platform) (folder : Folder) : List SourceFile :=
  (sortBy (fun file : SourceFile => platform.key file.parts) folder.files).filter isSource

/-- `as_posix()` of a path below the root. -/
def asPosix (folder : Text) (parts : List Text) : Text := ['/'].intercalate ("src".toList :: folder :: parts)

def filesBelow (platform : Platform) (name : Text) (folder : Folder) : List (Text × Bytes) :=
  (sourceFiles platform folder).map fun file => (asPosix name file.parts, file.content)

/-- The files of the image, in order. -/
def imageFiles (platform : Platform) (project : Project) (tree : SourceTree) : List (Text × Bytes) :=
  (SharedInput.all.map fun input => (input.path, tree.shared input))
    ++ filesBelow platform "ServiceDefaults".toList tree.serviceDefaults
    ++ filesBelow platform project.name tree.projectFolder

/-- What `digest.update` is called with, in order. -/
def updates (platform : Platform) (project : Project) (tree : SourceTree) : List Bytes :=
  (imageFiles platform project tree).flatMap fun file => [utf8 file.1, normalize file.2]

/-- The bytes that are hashed. -/
def stream (platform : Platform) (project : Project) (tree : SourceTree) : Bytes :=
  (updates platform project tree).flatten

/-- The repository below a root; a project folder may be missing. -/
structure Repository where
  root : Text
  shared : SharedInput → Bytes
  serviceDefaults : Folder
  projectFolder : Option Folder

def SourceTree.at (tree : SourceTree) (root : Text) : Repository :=
  ⟨root, tree.shared, tree.serviceDefaults, some tree.projectFolder⟩

/-- `content_tag`, with the hexadecimal digest of SHA-256 as `sha256`. -/
def contentTag (sha256 : Bytes → Text) (platform : Platform) (project : Project) (repository : Repository) :
    Except Text Text :=
  match repository.projectFolder with
  | none => .error ("no .NET project folder at ".toList ++ repository.root ++ "/src/".toList ++ project.name)
  | some folder =>
    .ok ((sha256 (stream platform project ⟨repository.shared, repository.serviceDefaults, folder⟩)).take 12)

/-! ## Sorting by a key -/

section Sorting
variable {α κ : Type} [LinearOrder κ] {key : α → κ} {items : List α}

theorem perm_sortBy : (sortBy key items).Perm items := List.perm_insertionSort ..

theorem pairwise_sortBy : (sortBy key items).Pairwise fun a b => key a ≤ key b := by
  have htotal : Std.Total fun a b => key a ≤ key b := ⟨fun a b => le_total (key a) (key b)⟩
  have htrans : IsTrans α fun a b => key a ≤ key b := ⟨fun _ _ _ => le_trans⟩
  exact List.pairwise_insertionSort _ items

end Sorting

/-! ## What the stream tells apart -/

/-- The paths and normalised contents of what counts in a folder. -/
def normalized (folder : Folder) : List (List Text × Bytes) :=
  (folder.files.filter isSource).map fun file => (file.parts, normalize file.content)

/-- A shared input, or a path or the contents of a file, is another one. -/
def Differ (first second : SourceTree) : Prop :=
  (∃ input, normalize (first.shared input) ≠ normalize (second.shared input)) ∨
    (∃ file, ¬ (file ∈ normalized first.serviceDefaults ↔ file ∈ normalized second.serviceDefaults)) ∨
    ∃ file, ¬ (file ∈ normalized first.projectFolder ↔ file ∈ normalized second.projectFolder)

theorem prefix_of_utf8 {p q : Text} (h : utf8 p <+: utf8 q) : p <+: q := by
  obtain ⟨rest, hrest⟩ := h
  refine List.isPrefix_of_utf8Encode_append_eq_utf8Encode rest.toByteArray ?_
  rw [List.utf8Encode, List.utf8Encode, ← List.toByteArray_append]
  exact congrArg List.toByteArray hrest

theorem utf8_inj {p q : Text} (h : utf8 p = utf8 q) : p = q := by
  have hpq : p <+: q := prefix_of_utf8 (h ▸ List.prefix_refl _)
  have hqp : q <+: p := prefix_of_utf8 (h ▸ List.prefix_refl _)
  exact hpq.eq_of_length (Nat.le_antisymm hpq.length_le hqp.length_le)

theorem asPosix_inj {name name' : Text} {file file' : SourceFile} (hname : '/' ∉ name) (hname' : '/' ∉ name')
    (h : asPosix name file.parts = asPosix name' file'.parts) : name = name' ∧ file.parts = file'.parts := by
  have hsrc : '/' ∉ "src".toList := by decide
  have hsplit : ∀ {n : Text} {f : SourceFile}, '/' ∉ n →
      (asPosix n f.parts).splitOn '/' = "src".toList :: n :: f.parts := by
    intro n f hn
    refine List.splitOn_intercalate '/' (fun part hpart => ?_) (List.cons_ne_nil _ _)
    rcases hpart with _ | ⟨_, _ | ⟨_, hpart⟩⟩
    · exact hsrc
    · exact hn
    · exact f.noSlash part hpart
  have hparts := congrArg (List.splitOn '/') h
  rw [hsplit hname, hsplit hname'] at hparts
  obtain ⟨-, hparts⟩ := List.cons.inj hparts
  exact List.cons.inj hparts

/-- The paths and normalised contents of a folder, in order. -/
def entriesBelow (platform : Platform) (name : Text) (folder : Folder) : List (Text × Bytes) :=
  (sourceFiles platform folder).map fun file => (asPosix name file.parts, normalize file.content)

def sharedEntries (tree : SourceTree) : List (Text × Bytes) :=
  SharedInput.all.map fun input => (input.path, normalize (tree.shared input))

def entries (platform : Platform) (project : Project) (tree : SourceTree) : List (Text × Bytes) :=
  sharedEntries tree ++ (entriesBelow platform "ServiceDefaults".toList tree.serviceDefaults ++
    entriesBelow platform project.name tree.projectFolder)

/-- The path and the contents of each file, one after the other. -/
def text (entries : List (Text × Bytes)) : Bytes := entries.flatMap fun entry => utf8 entry.1 ++ entry.2

@[simp] theorem text_nil : text [] = [] := rfl

@[simp] theorem text_cons (entry : Text × Bytes) (rest : List (Text × Bytes)) :
    text (entry :: rest) = utf8 entry.1 ++ (entry.2 ++ text rest) := by simp [text]

@[simp] theorem text_append (front back : List (Text × Bytes)) : text (front ++ back) = text front ++ text back :=
  List.flatMap_append

theorem stream_eq (platform : Platform) (project : Project) (tree : SourceTree) :
    stream platform project tree = text (entries platform project tree) := by
  simp only [stream, updates, text, entries, imageFiles, sharedEntries, entriesBelow, filesBelow, List.flatMap_append,
    List.flatMap_map, List.append_assoc, List.flatten_eq_flatMap, List.flatMap_assoc,
    List.flatMap_cons, List.flatMap_nil, List.append_nil, id_eq]

theorem defaults_noSlash : '/' ∉ "ServiceDefaults".toList := by decide

/-- Files of the two folders have different paths. -/
theorem asPosix_ne {project : Project} (file file' : SourceFile) :
    asPosix "ServiceDefaults".toList file.parts ≠ asPosix project.name file'.parts := fun h =>
  project.notDefaults (asPosix_inj defaults_noSlash project.noSlash h).1.symm

/-- Equal entries are entries of the same folder. -/
theorem entriesBelow_append_inj {platform : Platform} {project : Project} {first second : SourceTree}
    (h : entriesBelow platform "ServiceDefaults".toList first.serviceDefaults ++
        entriesBelow platform project.name first.projectFolder =
      entriesBelow platform "ServiceDefaults".toList second.serviceDefaults ++
        entriesBelow platform project.name second.projectFolder) :
    entriesBelow platform "ServiceDefaults".toList first.serviceDefaults =
        entriesBelow platform "ServiceDefaults".toList second.serviceDefaults ∧
      entriesBelow platform project.name first.projectFolder =
        entriesBelow platform project.name second.projectFolder := by
  have hcut : ∀ {a b c d m : List (Text × Bytes)}, (∀ e ∈ m, e ∈ b → e ∈ c → False) → b = a ++ m → c = m ++ d →
      a = b ∧ c = d := by
    intro a b c d m hdisjoint hb hc
    cases m with
    | nil => exact ⟨by rw [hb, List.append_nil], by rw [hc, List.nil_append]⟩
    | cons e m => exact (hdisjoint e List.mem_cons_self (by simp [hb]) (by simp [hc])).elim
  have hdisjoint : ∀ {d p : Folder} (e : Text × Bytes), e ∈ entriesBelow platform "ServiceDefaults".toList d →
      e ∈ entriesBelow platform project.name p → False := by
    intro d p e hd hp
    obtain ⟨file, -, rfl⟩ := List.mem_map.1 hd
    obtain ⟨file', -, hfile'⟩ := List.mem_map.1 hp
    exact asPosix_ne file file' (Prod.mk.inj hfile').1.symm
  obtain ⟨m, hb, hc⟩ | ⟨m, ha, hd⟩ := List.append_eq_append_iff.1 h
  · exact hcut (fun e _ => hdisjoint e) hb hc
  · obtain ⟨hsame, hsame'⟩ := hcut (fun e _ => hdisjoint e) ha hd
    exact ⟨hsame.symm, hsame'.symm⟩

/-- The entries of a folder show what counts in it. -/
theorem mem_normalized_iff {platform : Platform} {name : Text} (hname : '/' ∉ name) {first second : Folder}
    (h : entriesBelow platform name first = entriesBelow platform name second) (file : List Text × Bytes) :
    file ∈ normalized first ↔ file ∈ normalized second := by
  have hsub : ∀ {first second : Folder}, entriesBelow platform name first = entriesBelow platform name second →
      file ∈ normalized first → file ∈ normalized second := by
    intro first second h hfile
    obtain ⟨source, hsource, rfl⟩ := List.mem_map.1 hfile
    have hmem : ∀ {folder : Folder} {f : SourceFile}, f ∈ sourceFiles platform folder ↔
        f ∈ folder.files.filter isSource := fun {folder f} => by
      rw [sourceFiles, List.mem_filter, List.mem_filter, sortBy, List.mem_insertionSort]
    have hentry : (asPosix name source.parts, normalize source.content) ∈ entriesBelow platform name first :=
      List.mem_map.2 ⟨source, hmem.2 hsource, rfl⟩
    rw [h] at hentry
    obtain ⟨other, hother, hsame⟩ := List.mem_map.1 hentry
    obtain ⟨hpath, hcontent⟩ := Prod.mk.inj hsame
    exact List.mem_map.2 ⟨other, hmem.1 hother, Prod.ext (asPosix_inj hname hname hpath).2 hcontent⟩
  exact ⟨hsub h, hsub h.symm⟩

/-- Trees that differ have different entries. -/
theorem entries_ne {platform : Platform} {project : Project} {first second : SourceTree}
    (h : Differ first second) : entries platform project first ≠ entries platform project second := by
  intro hentries
  obtain ⟨hshared, hbelow⟩ := List.append_inj hentries rfl
  obtain ⟨hdefaults, hproject⟩ := entriesBelow_append_inj hbelow
  obtain ⟨input, hinput⟩ | ⟨file, hfile⟩ | ⟨file, hfile⟩ := h
  · have hpairs := List.map_inj_left.1 hshared input input.mem_all
    exact hinput (Prod.mk.inj hpairs).2
  · exact hfile (mem_normalized_iff defaults_noSlash hdefaults file)
  · exact hfile (mem_normalized_iff project.noSlash hproject file)

theorem path_ne_nil {platform : Platform} {project : Project} {tree : SourceTree} :
    ∀ entry ∈ entries platform project tree, entry.1 ≠ [] := by
  have hbelow : ∀ {name : Text} {folder : Folder}, ∀ entry ∈ entriesBelow platform name folder, entry.1 ≠ [] := by
    intro name folder entry hentry
    obtain ⟨file, -, rfl⟩ := List.mem_map.1 hentry
    exact List.cons_ne_nil _ _
  intro entry hentry
  obtain hentry | hentry := List.mem_append.1 hentry
  · obtain ⟨input, -, rfl⟩ := List.mem_map.1 hentry
    cases input <;> exact List.cons_ne_nil _ _
  · obtain hentry | hentry := List.mem_append.1 hentry <;> exact hbelow entry hentry

/-! ## Texts that move -/

/-- The one is the other with a text behind it, and this text comes next after the other. -/
def MovedFrom (long short next : Bytes) : Prop := short <+: long ∧ long.drop short.length <+: next

/-- At the first file where the two differ, the end of the path or of the contents stands, in the other tree,
at the beginning of what comes next. -/
def Moved : List (Text × Bytes) → List (Text × Bytes) → Prop
  | (path, content) :: rest, (path', content') :: rest' =>
    if path ≠ path' then
      MovedFrom (utf8 path) (utf8 path') (content' ++ text rest') ∨
        MovedFrom (utf8 path') (utf8 path) (content ++ text rest)
    else if content ≠ content' then
      MovedFrom content content' (text rest') ∨ MovedFrom content' content (text rest)
    else Moved rest rest'
  | _, _ => False

@[simp] theorem moved_append_left (front first second : List (Text × Bytes)) :
    Moved (front ++ first) (front ++ second) ↔ Moved first second := by
  induction front with
  | nil => rfl
  | cons entry front ih => rw [List.cons_append, List.cons_append, Moved, if_neg (by simp), if_neg (by simp), ih]

/-- Nothing has moved if neither of the paths that differ begins with the other. -/
theorem not_moved_of_paths {path path' : Text} {content content' : Bytes} {rest rest' : List (Text × Bytes)}
    (h : ¬ path <+: path') (h' : ¬ path' <+: path) : ¬ Moved ((path, content) :: rest) ((path', content') :: rest') := by
  have hne : path ≠ path' := fun heq => h (heq ▸ List.prefix_refl _)
  rw [Moved, if_pos hne]
  rintro (⟨hbefore, -⟩ | ⟨hbefore, -⟩)
  · exact h' (prefix_of_utf8 hbefore)
  · exact h (prefix_of_utf8 hbefore)

/-- Nothing has moved if neither of the contents that differ begin with the other. -/
theorem not_moved_of_contents {path : Text} {content content' : Bytes} {rest rest' : List (Text × Bytes)}
    (h : ¬ content <+: content') (h' : ¬ content' <+: content) :
    ¬ Moved ((path, content) :: rest) ((path, content') :: rest') := by
  have hne : content ≠ content' := fun heq => h (heq ▸ List.prefix_refl _)
  rw [Moved, if_neg (by simp), if_pos hne]
  rintro (⟨hbefore, -⟩ | ⟨hbefore, -⟩)
  · exact h' hbefore
  · exact h hbefore

/-- How many bytes the paths and the contents have. -/
def size : List (Text × Bytes) → Nat
  | [] => 0
  | (path, content) :: rest => (utf8 path).length + content.length + size rest

@[simp] theorem size_append (entries others : List (Text × Bytes)) :
    size (entries ++ others) = size entries + size others := by
  induction entries with
  | nil => simp [size]
  | cons entry entries ih => simp [size, ih, Nat.add_assoc]

/-- The trees have as many bytes, and a text has moved. -/
structure TextMoved (platform : Platform) (project : Project) (first second : SourceTree) : Prop where
  size : size (entries platform project first) = size (entries platform project second)
  moved : Moved (entries platform project first) (entries platform project second)

theorem length_text (entries : List (Text × Bytes)) : (text entries).length = size entries := by
  induction entries with
  | nil => rfl
  | cons entry entries ih =>
    obtain ⟨path, content⟩ := entry
    simp only [text_cons, size, List.length_append, ih, Nat.add_assoc]

theorem text_ne_nil {entry : Text × Bytes} {rest : List (Text × Bytes)} (hpath : entry.1 ≠ []) :
    text (entry :: rest) ≠ text [] := by
  intro h
  rw [text_cons] at h
  exact hpath (utf8_inj (List.append_eq_nil_iff.1 h).1)

/-- One text in two pieces each, the first ones different: a text has moved. -/
theorem movedFrom_of_append_eq {x y u v : Bytes} (h : x ++ u = y ++ v) : MovedFrom x y v ∨ MovedFrom y x u := by
  obtain ⟨w, rfl, rfl⟩ | ⟨w, rfl, rfl⟩ := List.append_eq_append_iff.1 h
  · exact .inr ⟨List.prefix_append .., by simp⟩
  · exact .inl ⟨List.prefix_append .., by simp⟩

theorem moved_of_text_eq : ∀ {first second : List (Text × Bytes)}, (∀ entry ∈ first, entry.1 ≠ []) →
    (∀ entry ∈ second, entry.1 ≠ []) → first ≠ second → text first = text second → Moved first second
  | [], [], _, _, hne, _ => absurd rfl hne
  | [], entry :: _, _, hpath, _, h => absurd h.symm (text_ne_nil (hpath entry List.mem_cons_self))
  | entry :: _, [], hpath, _, _, h => absurd h (text_ne_nil (hpath entry List.mem_cons_self))
  | (path, content) :: rest, (path', content') :: rest', hfirst, hsecond, hne, h => by
    rw [text_cons, text_cons] at h
    rw [Moved]
    split_ifs with hpath hcontent
    · exact movedFrom_of_append_eq h
    · obtain rfl := not_not.1 hpath
      exact movedFrom_of_append_eq (List.append_cancel_left h)
    · obtain rfl := not_not.1 hpath
      obtain rfl := not_not.1 hcontent
      exact moved_of_text_eq (fun e he => hfirst e (List.mem_cons_of_mem _ he))
        (fun e he => hsecond e (List.mem_cons_of_mem _ he)) (fun heq => hne (by rw [heq]))
        (List.append_cancel_left (List.append_cancel_left h))

/-- **Trees that differ are told apart** unless a text has moved. -/
theorem told_apart_unless_moved (platform : Platform) (project : Project) (first second : SourceTree)
    (hmoved : Differ first second → ¬ TextMoved platform project first second) :
    Differ first second → stream platform project first ≠ stream platform project second := by
  intro hdiffer heq
  rw [stream_eq, stream_eq] at heq
  refine hmoved hdiffer ⟨?_, moved_of_text_eq path_ne_nil path_ne_nil (entries_ne hdiffer) heq⟩
  rw [← length_text, ← length_text, heq]

def orderService : Project := ⟨"OrderService".toList, by decide, by decide⟩

def Folder.empty : Folder := ⟨[], List.nodup_nil⟩

/-- Empty shared inputs, and one file in the project folder. -/
def withFile (file : SourceFile) : SourceTree where
  shared := fun _ => []
  serviceDefaults := .empty
  projectFolder := ⟨[file], List.nodup_singleton _⟩

theorem entries_withFile {platform : Platform} {project : Project} {file : SourceFile} (h : isSource file = true) :
    entries platform project (withFile file) =
      sharedEntries (withFile file) ++ [(asPosix project.name file.parts, normalize file.content)] := by
  simp [entries, entriesBelow, sourceFiles, withFile, Folder.empty, sortBy, h]

theorem mem_normalized_withFile {file : SourceFile} (h : isSource file = true) (entry : List Text × Bytes) :
    entry ∈ normalized (withFile file).projectFolder ↔ entry = (file.parts, normalize file.content) := by
  simp [normalized, withFile, h]

/-- A file of another name that begins otherwise. -/
theorem told_apart_other_name : stream linux orderService (withFile ⟨["README".toList], [49], by decide, by decide⟩) ≠
    stream linux orderService (withFile ⟨["Program.cs".toList], [49], by decide, by decide⟩) := by
  refine told_apart_unless_moved linux orderService _ _ (fun _ htext => ?_)
    (.inr (.inr ⟨(["README".toList], [49]), fun hsame => ?_⟩))
  · have hmoved := htext.moved
    rw [entries_withFile rfl, entries_withFile rfl] at hmoved
    exact not_moved_of_paths (by decide) (by decide) ((moved_append_left ..).1 hmoved)
  · rw [mem_normalized_withFile rfl, mem_normalized_withFile rfl] at hsame
    exact absurd (hsame.1 rfl) (by decide)

/-- With other contents of one file nothing has moved. -/
theorem not_textMoved_of_one_file {platform : Platform} {project : Project} {first second : SourceTree}
    {front back : List (Text × Bytes)} {path : Text} {content content' : Bytes}
    (hfirst : entries platform project first = front ++ (path, content) :: back)
    (hsecond : entries platform project second = front ++ (path, content') :: back) (hne : content ≠ content') :
    ¬ TextMoved platform project first second := by
  rintro ⟨hsize, hmoved⟩
  rw [hfirst, hsecond] at hsize hmoved
  have hlength : content.length = content'.length := by simpa [size] using hsize
  refine not_moved_of_contents (fun hbefore => ?_) (fun hbefore => ?_) ((moved_append_left ..).1 hmoved)
  · exact hne (hbefore.eq_of_length hlength)
  · exact hne (hbefore.eq_of_length hlength.symm).symm

/-- A text that moves from the end of a path to the contents is not told apart. -/
theorem stream_eq_of_path {platform : Platform} {project : Project} {first second : SourceTree}
    {front back : List (Text × Bytes)} {path moved : Text} {content : Bytes}
    (hfirst : entries platform project first = front ++ (path ++ moved, content) :: back)
    (hsecond : entries platform project second = front ++ (path, utf8 moved ++ content) :: back) :
    stream platform project first = stream platform project second := by
  rw [stream_eq, stream_eq, hfirst, hsecond]
  simp [utf8]

/-- Nor is one that moves from the end of contents to the path of the next file. -/
theorem stream_eq_of_content {platform : Platform} {project : Project} {first second : SourceTree}
    {front back : List (Text × Bytes)} {path path' moved : Text} {content content' : Bytes}
    (hfirst : entries platform project first = front ++ (path, content ++ utf8 moved) :: (path', content') :: back)
    (hsecond : entries platform project second = front ++ (path, content) :: (moved ++ path', content') :: back) :
    stream platform project first = stream platform project second := by
  rw [stream_eq, stream_eq, hfirst, hsecond]
  simp [utf8]

def readme : SourceFile := ⟨["README".toList], [49], by decide, by decide⟩

/-- A character moves from the end of a name to the beginning of the file. -/
theorem moved_character_not_told_apart :
    ¬ ∀ (platform : Platform) (project : Project) (first second : SourceTree),
      Differ first second → stream platform project first ≠ stream platform project second := by
  intro h
  refine h linux orderService (withFile ⟨["README1".toList], [], by decide, by decide⟩) (withFile readme)
    (.inr (.inr ⟨(["README1".toList], []), fun hsame => ?_⟩)) ?_
  · rw [mem_normalized_withFile rfl, mem_normalized_withFile rfl] at hsame
    exact absurd (hsame.1 rfl) (by decide)
  · exact stream_eq_of_path (entries_withFile rfl : _ = _ ++ (asPosix orderService.name readme.parts ++ ['1'], []) :: [])
      (entries_withFile rfl)

end ImageTags

end TxPlatform
