import TxPlatform.Deploy.ImageTags
import TxPlatform.Lib.Words

/-! # Tags of two checkouts

A commit is checked out on Linux and on Windows. Each text file has LF or CRLF line endings there, and
each system lists the files in an order of its own. The tag normalises the line endings and sorts the
files, by case on Linux and in lower case on Windows; so the tags are the same exactly where the two
orders are (`sameTag_iff`).
-/

namespace TxPlatform

namespace ImageTags

/-! ## Line endings -/

/-- CRLF for LF. -/
def toCrlf (content : Bytes) : Bytes := content.flatMap fun c => if c = 10 then [13, 10] else [c]

/-- What a checkout writes for a stored file: the file, or a text with LF line endings with CRLF
instead. -/
inductive Written : Bytes → Bytes → Prop
  | stored (content : Bytes) : Written content content
  | crlf {content : Bytes} (h : ¬ [13, 10] <:+: content) : Written content (toCrlf content)

theorem normalize_cons {c : UInt8} {rest : Bytes} (h : ¬ (c = 13 ∧ rest.head? = some 10)) :
    normalize (c :: rest) = c :: normalize rest := by
  cases rest with
  | nil => rfl
  | cons d rest =>
    rw [normalize, if_neg]
    rintro ⟨rfl, rfl⟩
    exact h ⟨rfl, rfl⟩

theorem normalize_of_lf : ∀ {content : Bytes}, ¬ [13, 10] <:+: content → normalize content = content
  | [], _ => rfl
  | c :: rest, h => by
    rw [normalize_cons, normalize_of_lf fun hrest => h (hrest.trans (List.suffix_cons c rest).isInfix)]
    rintro ⟨rfl, hhead⟩
    obtain ⟨rest', rfl⟩ := List.head?_eq_some_iff.1 hhead
    exact h (List.IsPrefix.isInfix ⟨rest', rfl⟩)

/-- LF never stands at the beginning. -/
theorem head?_toCrlf (content : Bytes) : (toCrlf content).head? ≠ some 10 := by
  cases content with
  | nil => simp [toCrlf]
  | cons c rest =>
    by_cases hc : c = 10
    · simp [toCrlf, hc]
    · simp [toCrlf, hc]

theorem normalize_toCrlf (content : Bytes) : normalize (toCrlf content) = content := by
  induction content with
  | nil => rfl
  | cons c rest ih =>
    rw [toCrlf, List.flatMap_cons, ← toCrlf]
    by_cases hc : c = 10
    · subst hc
      rw [if_pos rfl, List.cons_append, List.singleton_append, normalize, if_pos ⟨rfl, rfl⟩, ih]
    · rw [if_neg hc, List.singleton_append, normalize_cons fun h => head?_toCrlf rest h.2, ih]

theorem Written.normalize_eq {content written : Bytes} (h : Written content written) :
    normalize written = normalize content := by
  cases h with
  | stored => rfl
  | crlf hlf => rw [normalize_toCrlf, normalize_of_lf hlf]

/-! ## Checkouts -/

/-- The files of a folder, each as a checkout may write it, in any order. -/
def FolderWritten (folder written : Folder) : Prop :=
  ∃ files,
    List.Forall₂ (fun file file' => file'.parts = file.parts ∧ Written file.content file'.content) folder.files files ∧
    files.Perm written.files

structure Checkout (commit tree : SourceTree) : Prop where
  shared : ∀ input, Written (commit.shared input) (tree.shared input)
  serviceDefaults : FolderWritten commit.serviceDefaults tree.serviceDefaults
  projectFolder : FolderWritten commit.projectFolder tree.projectFolder

/-- Wherever a commit is checked out, on Linux and on a system with other keys, it has one tag. -/
def SameTag (sha256 : Bytes → Text) (windows : Platform) (project : Project) (commit : SourceTree) : Prop :=
  ∀ first second root root', Checkout commit first → Checkout commit second →
    contentTag sha256 linux project (first.at root) = contentTag sha256 windows project (second.at root')

/-- Of two files that count, the one that is first by case is also first with the other keys. -/
def OrdersAgree (windows : Platform) (folder : Folder) : Prop :=
  ∀ a ∈ folder.files, ∀ b ∈ folder.files, isSource a → isSource b →
    linux.key a.parts < linux.key b.parts → windows.key a.parts < windows.key b.parts

/-- The tags of different streams of the commit are different. -/
def NoCollision (sha256 : Bytes → Text) (windows : Platform) (project : Project) (commit : SourceTree) : Prop :=
  ∀ first second, Checkout commit first → Checkout commit second →
    (sha256 (stream linux project first)).take 12 = (sha256 (stream windows project second)).take 12 →
    stream linux project first = stream windows project second

theorem linux_key (parts : List Text) : linux.key parts = parts := List.map_id' parts

/-- What counts in a folder, in order. -/
def counted (platform : Platform) (folder : Folder) : List (List Text × Bytes) :=
  (sourceFiles platform folder).map fun file => (file.parts, normalize file.content)

theorem entriesBelow_eq (platform : Platform) (name : Text) (folder : Folder) :
    entriesBelow platform name folder = (counted platform folder).map fun file => (asPosix name file.1, file.2) := by
  rw [entriesBelow, counted, List.map_map]
  rfl

theorem counted_perm (platform : Platform) (folder : Folder) : (counted platform folder).Perm (normalized folder) :=
  (perm_sortBy.filter isSource).map _

theorem counted_sorted (platform : Platform) (folder : Folder) :
    (counted platform folder).Pairwise fun a b => platform.key a.1 ≤ platform.key b.1 :=
  List.pairwise_map.2 (pairwise_sortBy.filter isSource)

theorem FolderWritten.of_perm {folder listing : Folder} (h : listing.files.Perm folder.files) :
    FolderWritten folder listing :=
  ⟨folder.files, List.forall₂_same.2 fun file _ => ⟨rfl, .stored file.content⟩, h.symm⟩

theorem FolderWritten.refl (folder : Folder) : FolderWritten folder folder := .of_perm (List.Perm.refl _)

theorem Checkout.refl (commit : SourceTree) : Checkout commit commit :=
  ⟨fun _ => .stored _, .refl _, .refl _⟩

theorem FolderWritten.perm {folder written : Folder} (h : FolderWritten folder written) :
    (normalized written).Perm (normalized folder) := by
  obtain ⟨files, hsame, hperm⟩ := h
  refine ((hperm.symm.filter isSource).map _).trans (List.Perm.of_eq ?_)
  clear hperm
  rw [normalized]
  generalize folder.files = stored at hsame ⊢
  induction hsame with
  | nil => rfl
  | @cons file file' _ _ hfile _ ih =>
    have hcounts : isSource file' = isSource file := by rw [isSource, isSource, hfile.1]
    rw [List.filter_cons, List.filter_cons, hcounts]
    split
    · rw [List.map_cons, List.map_cons, ih, hfile.1, hfile.2.normalize_eq]
    · exact ih

/-- Two checkouts of a folder count the same files. -/
theorem counted_perm_counted {platform platform' : Platform} {folder first second : Folder}
    (hfirst : FolderWritten folder first) (hsecond : FolderWritten folder second) :
    (counted platform first).Perm (counted platform' second) :=
  ((counted_perm platform first).trans hfirst.perm).trans ((counted_perm platform' second).trans hsecond.perm).symm

/-- Files that count have different paths. -/
theorem eq_of_mem_normalized {folder : Folder} {a b : List Text × Bytes} (ha : a ∈ normalized folder)
    (hb : b ∈ normalized folder) (h : a.1 = b.1) : a = b := by
  obtain ⟨file, hfile, rfl⟩ := List.mem_map.1 ha
  obtain ⟨file', hfile', rfl⟩ := List.mem_map.1 hb
  rw [List.inj_on_of_nodup_map folder.distinct (List.mem_filter.1 hfile).1 (List.mem_filter.1 hfile').1 h]

/-! ## Orders that agree -/

theorem OrdersAgree.lt {windows : Platform} {folder : Folder} (h : OrdersAgree windows folder)
    {a b : List Text × Bytes} (ha : a ∈ normalized folder) (hb : b ∈ normalized folder)
    (hab : linux.key a.1 < linux.key b.1) : windows.key a.1 < windows.key b.1 := by
  obtain ⟨file, hfile, rfl⟩ := List.mem_map.1 ha
  obtain ⟨file', hfile', rfl⟩ := List.mem_map.1 hb
  obtain ⟨hmem, hcounts⟩ := List.mem_filter.1 hfile
  obtain ⟨hmem', hcounts'⟩ := List.mem_filter.1 hfile'
  exact h file hmem file' hmem' hcounts hcounts' hab

theorem counted_eq {windows : Platform} {folder first second : Folder} (h : OrdersAgree windows folder)
    (hfirst : FolderWritten folder first) (hsecond : FolderWritten folder second) :
    counted linux first = counted windows second := by
  have hin : ∀ {e}, e ∈ counted linux first → e ∈ normalized folder :=
    ((counted_perm linux first).trans hfirst.perm).mem_iff.1
  have hin' : ∀ {e}, e ∈ counted windows second → e ∈ normalized folder :=
    ((counted_perm windows second).trans hsecond.perm).mem_iff.1
  refine List.Perm.eq_of_pairwise (fun a b ha hb hab hba => ?_) (counted_sorted linux first)
    ((counted_sorted windows second).imp_of_mem fun {a b} ha hb hab => ?_)
    (counted_perm_counted hfirst hsecond)
  · refine eq_of_mem_normalized (hin ha) (hin' hb) ?_
    have hkey := le_antisymm hab hba
    rwa [linux_key, linux_key] at hkey
  · exact le_of_not_gt fun hba => absurd hab (not_le_of_gt (h.lt (hin' hb) (hin' ha) hba))

theorem stream_eq_of_ordersAgree {windows : Platform} (project : Project) {commit first second : SourceTree}
    (hdefaults : OrdersAgree windows commit.serviceDefaults) (hproject : OrdersAgree windows commit.projectFolder)
    (hfirst : Checkout commit first) (hsecond : Checkout commit second) :
    stream linux project first = stream windows project second := by
  have hshared : sharedEntries first = sharedEntries second :=
    List.map_congr_left fun input _ => by
      rw [(hfirst.shared input).normalize_eq, (hsecond.shared input).normalize_eq]
  rw [stream_eq, stream_eq, entries, entries, hshared]
  simp only [entriesBelow_eq]
  rw [counted_eq hdefaults hfirst.serviceDefaults hsecond.serviceDefaults,
    counted_eq hproject hfirst.projectFolder hsecond.projectFolder]

/-! ## Orders that do not -/

/-- A path that begins with another one comes after it. -/
theorem key_lt_of_begins (platform : Platform) : ∀ {a b : List Text}, (∀ part ∈ a, '/' ∉ part) →
    (∀ part ∈ b, '/' ∉ part) → a ≠ [] → b ≠ [] → ['/'].intercalate a <+: ['/'].intercalate b →
    a ≠ b → platform.key a < platform.key b
  | [], _, _, _, ha, _, _, _ => absurd rfl ha
  | _, [], _, _, _, hb, _, _ => absurd rfl hb
  | [x], [y], _, _, _, _, h, hne => by
    rw [List.intercalate_singleton, List.intercalate_singleton] at h
    exact List.cons_lt_cons_iff.2 (.inl (platform.prefix_lt h fun hxy => hne (by rw [hxy])))
  | [x], y :: y' :: ys, hx, _, _, _, h, _ => by
    rw [List.intercalate_singleton, List.intercalate_cons_cons, List.append_assoc, List.singleton_append] at h
    have hxy : x <+: y := by
      obtain hxy | hyx := List.prefix_or_prefix_of_prefix h (List.prefix_append y _)
      · exact hxy
      · obtain ⟨rest, rfl⟩ := hyx
        rw [List.prefix_append_right_inj] at h
        cases rest with
        | nil => rw [List.append_nil]
        | cons c rest =>
          obtain ⟨rfl, -⟩ := List.cons_prefix_cons.1 h
          exact absurd (by simp) (hx _ List.mem_cons_self)
    by_cases hsame : x = y
    · subst hsame
      exact List.cons_lt_cons_self.2 (List.nil_lt_cons _ _)
    · exact List.cons_lt_cons_iff.2 (.inl (platform.prefix_lt hxy hsame))
  | x :: x' :: xs, [y], _, hy, _, _, h, _ => by
    rw [List.intercalate_singleton, List.intercalate_cons_cons, List.append_assoc, List.singleton_append] at h
    exact absurd (h.subset (by simp)) (hy y List.mem_cons_self)
  | x :: x' :: xs, y :: y' :: ys, hx, hy, _, _, h, hne => by
    rw [List.intercalate_cons_cons, List.intercalate_cons_cons, List.append_assoc, List.append_assoc,
      List.singleton_append, List.singleton_append] at h
    obtain ⟨rest, hrest⟩ := h
    rw [List.append_assoc, List.cons_append,
      append_cons_inj (hx x List.mem_cons_self) (hy y List.mem_cons_self)] at hrest
    obtain ⟨rfl, hrest⟩ := hrest
    refine List.cons_lt_cons_self.2 (key_lt_of_begins platform (fun part h => hx part (List.mem_cons_of_mem _ h))
      (fun part h => hy part (List.mem_cons_of_mem _ h)) (List.cons_ne_nil _ _) (List.cons_ne_nil _ _) ⟨rest, hrest⟩
      fun hsame => hne (by rw [hsame]))

theorem asPosix_prefix {name : Text} {a b : List Text} (ha : a ≠ []) (hb : b ≠ [])
    (h : asPosix name a <+: asPosix name b) : ['/'].intercalate a <+: ['/'].intercalate b := by
  cases a with
  | nil => exact absurd rfl ha
  | cons x xs =>
    cases b with
    | nil => exact absurd rfl hb
    | cons y ys => simpa [asPosix, List.intercalate_cons_cons, List.prefix_append_right_inj] using h

/-- What is hashed of a folder. -/
def bytesOf (name : Text) (files : List (List Text × Bytes)) : Bytes :=
  files.flatMap fun file => utf8 (asPosix name file.1) ++ file.2

theorem stream_eq_bytesOf (platform : Platform) (project : Project) (tree : SourceTree) :
    stream platform project tree = text (sharedEntries tree) ++
      (bytesOf "ServiceDefaults".toList (counted platform tree.serviceDefaults) ++
        bytesOf project.name (counted platform tree.projectFolder)) := by
  rw [stream_eq, entries, text_append, text_append]
  simp only [entriesBelow_eq, bytesOf, text, List.flatMap_map]

theorem bytesOf_cons (name : Text) (file : List Text × Bytes) (files : List (List Text × Bytes)) :
    bytesOf name (file :: files) = utf8 (asPosix name file.1) ++ (file.2 ++ bytesOf name files) := by
  simp [bytesOf]

theorem length_bytesOf {name : Text} {files files' : List (List Text × Bytes)} (h : files.Perm files') :
    (bytesOf name files).length = (bytesOf name files').length :=
  (h.flatMap_right _).length_eq

/-- Files of one folder in two orders: where the order differs, one path begins with the other, and
that one is first in both orders. -/
theorem eq_of_bytesOf_eq {windows : Platform} {name : Text} :
    ∀ {files files' : List (List Text × Bytes)}, files.Perm files' →
      (∀ file ∈ files, file.1 ≠ [] ∧ ∀ part ∈ file.1, '/' ∉ part) →
      (∀ a ∈ files, ∀ b ∈ files, a.1 = b.1 → a = b) →
      (files.Pairwise fun a b => linux.key a.1 ≤ linux.key b.1) →
      (files'.Pairwise fun a b => windows.key a.1 ≤ windows.key b.1) →
      bytesOf name files = bytesOf name files' → files = files'
  | [], files', hperm, _, _, _, _, _ => (List.perm_nil.1 hperm.symm).symm
  | f :: files, [], hperm, _, _, _, _, _ => absurd (List.perm_nil.1 hperm) (List.cons_ne_nil _ _)
  | f :: files, g :: files', hperm, hpaths, hdistinct, hsorted, hsorted', hbytes => by
    rw [List.pairwise_cons] at hsorted hsorted'
    have hgmem : g ∈ f :: files := hperm.mem_iff.2 List.mem_cons_self
    have hlt : ∀ (platform : Platform) {a b : List Text × Bytes}, a ∈ f :: files → b ∈ f :: files → a ≠ b →
        utf8 (asPosix name a.1) <+: utf8 (asPosix name b.1) → platform.key a.1 < platform.key b.1 := by
      intro platform a b ha hb hne h
      obtain ⟨hanil, haslash⟩ := hpaths a ha
      obtain ⟨hbnil, hbslash⟩ := hpaths b hb
      refine key_lt_of_begins platform haslash hbslash hanil hbnil ?_ fun hsame => hne (hdistinct a ha b hb hsame)
      exact asPosix_prefix hanil hbnil (prefix_of_utf8 h)
    by_cases hfg : f = g
    · subst hfg
      rw [bytesOf_cons, bytesOf_cons, List.append_cancel_left_eq, List.append_cancel_left_eq] at hbytes
      rw [eq_of_bytesOf_eq hperm.cons_inv (fun file h => hpaths file (List.mem_cons_of_mem _ h))
        (fun a ha b hb => hdistinct a (List.mem_cons_of_mem _ ha) b (List.mem_cons_of_mem _ hb))
        hsorted.2 hsorted'.2 hbytes]
    · have hffirst : linux.key f.1 ≤ linux.key g.1 := hsorted.1 g (List.mem_of_ne_of_mem (Ne.symm hfg) hgmem)
      have hgfirst : windows.key g.1 ≤ windows.key f.1 :=
        hsorted'.1 f (List.mem_of_ne_of_mem hfg (hperm.mem_iff.1 List.mem_cons_self))
      rw [bytesOf_cons, bytesOf_cons] at hbytes
      obtain hbefore | hbefore := List.prefix_or_prefix_of_prefix
        ⟨_, hbytes⟩ (List.prefix_append (utf8 (asPosix name g.1)) (g.2 ++ bytesOf name files'))
      · exact absurd (hlt windows List.mem_cons_self hgmem hfg hbefore) (not_lt_of_ge hgfirst)
      · exact absurd (hlt linux hgmem List.mem_cons_self (Ne.symm hfg) hbefore) (not_lt_of_ge hffirst)

/-- The files of a folder with one of them listed first. -/
theorem exists_listing {folder : Folder} {a b : SourceFile} (ha : a ∈ folder.files) (hb : b ∈ folder.files)
    (hne : a ≠ b) : ∃ listing : Folder, listing.files.Perm folder.files ∧ [b, a].Sublist listing.files := by
  obtain ⟨front, back, hsplit⟩ := List.mem_iff_append.1 hb
  have hperm : (b :: (front ++ back)).Perm folder.files := by
    rw [hsplit]
    exact List.perm_middle.symm
  refine ⟨⟨b :: (front ++ back), (hperm.map _).nodup_iff.2 folder.distinct⟩, hperm, ?_⟩
  have hrest : a ∈ front ++ back := List.mem_of_ne_of_mem hne (hperm.mem_iff.2 ha)
  exact (List.singleton_sublist.2 hrest).cons_cons b

/-- If every listing is in one order, the orders agree. -/
theorem ordersAgree_of_counted {windows : Platform} {folder : Folder}
    (h : ∀ listing : Folder, listing.files.Perm folder.files → counted linux folder = counted windows listing) :
    OrdersAgree windows folder := by
  intro a ha b hb hcounts hcounts' hlt
  by_contra hnot
  have hne : a ≠ b := fun hab => lt_irrefl _ (hab ▸ hlt)
  obtain ⟨listing, hperm, hsub⟩ := exists_listing ha hb hne
  have hsorted : [b, a].Sublist (sourceFiles windows listing) := by
    have hkeys : windows.key b.parts ≤ windows.key a.parts := le_of_not_gt hnot
    have hfiltered := (List.pair_sublist_insertionSort
      (r := fun a b : SourceFile => windows.key a.parts ≤ windows.key b.parts) hkeys hsub).filter isSource
    rwa [List.filter_cons_of_pos hcounts', List.filter_cons_of_pos hcounts, List.filter_nil] at hfiltered
  have hcounted := hsorted.map fun file => (file.parts, normalize file.content)
  rw [← counted, ← h listing hperm] at hcounted
  have hle := List.rel_of_pairwise_cons ((counted_sorted linux folder).sublist hcounted) (List.mem_singleton.2 rfl)
  exact absurd hlt (not_lt_of_ge hle)

/-- Members of a folder's list have a path. -/
theorem path_of_mem_counted {platform : Platform} {folder : Folder} {file : List Text × Bytes}
    (h : file ∈ counted platform folder) : file.1 ≠ [] ∧ ∀ part ∈ file.1, '/' ∉ part := by
  obtain ⟨source, -, rfl⟩ := List.mem_map.1 ((counted_perm platform folder).mem_iff.1 h)
  exact ⟨source.nonempty, source.noSlash⟩

theorem counted_eq_of_bytesOf_eq {windows : Platform} {name : Text} {folder listing : Folder}
    (hperm : listing.files.Perm folder.files)
    (h : bytesOf name (counted linux folder) = bytesOf name (counted windows listing)) :
    counted linux folder = counted windows listing :=
  eq_of_bytesOf_eq (counted_perm_counted (.refl folder) (.of_perm hperm))
    (fun _ hfile => path_of_mem_counted hfile)
    (fun _ ha _ hb hsame => eq_of_mem_normalized ((counted_perm linux folder).mem_iff.1 ha)
      ((counted_perm linux folder).mem_iff.1 hb) hsame)
    (counted_sorted linux folder) (counted_sorted windows listing) h

/-- One stream for every listing is one order for every listing, in both folders. -/
theorem ordersAgree_of_stream {windows : Platform} (project : Project) {commit : SourceTree}
    (h : ∀ second, Checkout commit second → stream linux project commit = stream windows project second) :
    OrdersAgree windows commit.serviceDefaults ∧ OrdersAgree windows commit.projectFolder := by
  have hfolders : ∀ defaults folder : Folder, defaults.files.Perm commit.serviceDefaults.files →
      folder.files.Perm commit.projectFolder.files →
      counted linux commit.serviceDefaults = counted windows defaults ∧
        counted linux commit.projectFolder = counted windows folder := by
    intro defaults folder hdefaults hfolder
    have hstream := h ⟨commit.shared, defaults, folder⟩
      ⟨fun _ => .stored _, .of_perm hdefaults, .of_perm hfolder⟩
    rw [stream_eq_bytesOf, stream_eq_bytesOf] at hstream
    have hlength : (bytesOf "ServiceDefaults".toList (counted linux commit.serviceDefaults)).length =
        (bytesOf "ServiceDefaults".toList (counted windows defaults)).length :=
      length_bytesOf (counted_perm_counted (.refl _) (.of_perm hdefaults))
    obtain ⟨hdefaultsEq, hfolderEq⟩ := List.append_inj (List.append_cancel_left hstream) hlength
    exact ⟨counted_eq_of_bytesOf_eq hdefaults hdefaultsEq, counted_eq_of_bytesOf_eq hfolder hfolderEq⟩
  exact ⟨ordersAgree_of_counted fun listing hlisting => (hfolders listing _ hlisting (List.Perm.refl _)).1,
    ordersAgree_of_counted fun listing hlisting => (hfolders _ listing (List.Perm.refl _) hlisting).2⟩

/-- Two checkouts of a commit have one tag if and only if, in each folder, its files are in the same
order on both systems. -/
theorem sameTag_iff (sha256 : Bytes → Text) (windows : Platform) (project : Project) (commit : SourceTree)
    (hcollision : NoCollision sha256 windows project commit) :
    SameTag sha256 windows project commit ↔
      OrdersAgree windows commit.serviceDefaults ∧ OrdersAgree windows commit.projectFolder := by
  constructor
  · intro h
    refine ordersAgree_of_stream project fun second hsecond => ?_
    have htag := h commit second [] [] (.refl commit) hsecond
    exact hcollision commit second (.refl commit) hsecond (Except.ok.inj htag)
  · rintro ⟨hdefaults, hproject⟩ first second root root' hfirst hsecond
    have hstream := stream_eq_of_ordersAgree project hdefaults hproject hfirst hsecond
    exact congrArg (fun bytes => Except.ok ((sha256 bytes).take 12)) hstream

/-- `str.lower` on names in ASCII. -/
def asciiLower : Platform where
  partKey := List.map Char.toLower
  prefix_lt := fun h hne => lt_of_prefix (h.map Char.toLower) fun heq =>
    hne (h.eq_of_length (by simpa using congrArg List.length heq))

def zebra : SourceFile := ⟨["Zebra.cs".toList], [], by decide, by decide⟩

def apple : SourceFile := ⟨["apple.cs".toList], [], by decide, by decide⟩

theorem distinct_zebraApple : ([zebra, apple].map (·.parts)).Nodup := by decide

/-- Two empty files in the project folder. -/
def zebraApple : SourceTree where
  shared := fun _ => []
  serviceDefaults := .empty
  projectFolder := ⟨[zebra, apple], distinct_zebraApple⟩

/-- The paths that are hashed for two files, the contents being empty. -/
def pathsOf (first second : SourceFile) : Text :=
  SharedInput.all.flatMap SharedInput.path ++
    (asPosix orderService.name first.parts ++ asPosix orderService.name second.parts)

/-- SHA-256 of the paths with `Zebra.cs` first, and with `apple.cs` first. -/
def digest (bytes : Bytes) : Text :=
  if bytes = utf8 (pathsOf zebra apple) then "cff8dc0d769a93e7666dbdfd61bd490fd10008ba4286cdefb2a49dc4e4c366a6".toList
  else "684dd6ae91e3551293356b1150bd77b2e0e89e01cdb4100a52f41a9ac7376d0d".toList

theorem stream_zebraApple {platform : Platform} {first second : SourceFile} (hfirst : first.content = [])
    (hsecond : second.content = []) (h : sourceFiles platform zebraApple.projectFolder = [first, second]) :
    stream platform orderService zebraApple = utf8 (pathsOf first second) := by
  have hdefaults : counted platform zebraApple.serviceDefaults = [] := rfl
  rw [stream_eq_bytesOf, hdefaults, counted, h]
  simp [bytesOf, pathsOf, sharedEntries, SharedInput.all, zebraApple, utf8, normalize, hfirst, hsecond]

theorem stream_linux_zebraApple : stream linux orderService zebraApple = utf8 (pathsOf zebra apple) :=
  stream_zebraApple rfl rfl rfl

theorem stream_lower_zebraApple : stream asciiLower orderService zebraApple ≠ utf8 (pathsOf zebra apple) := by
  have horder : sourceFiles asciiLower zebraApple.projectFolder = [apple, zebra] := rfl
  rw [stream_zebraApple rfl rfl horder]
  intro h
  have hpaths := List.append_cancel_left (utf8_inj h)
  revert hpaths
  decide

theorem take_digest_eq {bytes : Bytes} (h : (digest (utf8 (pathsOf zebra apple))).take 12 = (digest bytes).take 12) :
    bytes = utf8 (pathsOf zebra apple) := by
  by_contra hne
  rw [digest, digest, if_pos rfl, if_neg hne] at h
  revert h
  decide

theorem noCollision_zebraApple : NoCollision digest asciiLower orderService zebraApple := by
  intro first second hfirst _ htags
  have hordered : ∀ folder, OrdersAgree linux folder := fun _ _ _ _ _ _ _ hlt => hlt
  have hlinux : stream linux orderService first = utf8 (pathsOf zebra apple) := by
    rw [stream_eq_of_ordersAgree orderService (hordered _) (hordered _) hfirst (.refl zebraApple),
      stream_linux_zebraApple]
  rw [hlinux] at htags ⊢
  exact (take_digest_eq htags).symm

theorem zebraApple_sameTag_iff :
    SameTag digest asciiLower orderService zebraApple ↔
      OrdersAgree asciiLower zebraApple.serviceDefaults ∧ OrdersAgree asciiLower zebraApple.projectFolder :=
  sameTag_iff digest asciiLower orderService zebraApple noCollision_zebraApple

/-- `Zebra.cs` is before `apple.cs` on Linux only. -/
theorem zebraApple_tags_differ : ¬ SameTag digest asciiLower orderService zebraApple := by
  intro h
  have htag := Except.ok.inj (h zebraApple zebraApple [] [] (.refl _) (.refl _))
  rw [show (⟨(zebraApple.at []).shared, (zebraApple.at []).serviceDefaults, zebraApple.projectFolder⟩ : SourceTree) =
    zebraApple from rfl, stream_linux_zebraApple] at htag
  exact stream_lower_zebraApple (take_digest_eq htag)

end ImageTags

end TxPlatform
