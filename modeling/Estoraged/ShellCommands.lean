import Estoraged.SharedHost

/-!
# The commands for the shell

`Filesystem::runMkfs` and `runFsck` put a command together and hand it to `system`. Where no
character is special to the shell it only splits the command at blanks, so it runs what was
meant exactly if no argument is empty or has a blank itself.
-/

namespace ShellFields
set_option autoImplicit false

def isBlank (c : Char) : Bool := c == ' ' || c == '\t'

/-- Characters that a shell takes as they are, wherever they stand. -/
def isPlain (c : Char) : Bool := c.isAlphanum || c ∈ ['-', '_', '.', '/', ':', ',', '+', '@']

/-- The field that ends here, if any has begun. -/
def finish (field : List Char) : List (List Char) := if field = [] then [] else [field]

/-- Reads on with `field` begun; blanks end a field. -/
def fieldsFrom (field : List Char) : List Char → List (List Char)
  | [] => finish field
  | c :: cs => if isBlank c then finish field ++ fieldsFrom [] cs else fieldsFrom (field ++ [c]) cs

def fields (cs : List Char) : List (List Char) := fieldsFrom [] cs

def IsField (cs : List Char) : Prop := cs ≠ [] ∧ ∀ c ∈ cs, isBlank c = false

theorem fieldsFrom_blank (field cs rest : List Char) :
    fieldsFrom field (cs ++ ' ' :: rest) = fieldsFrom field cs ++ fields rest := by
  induction cs generalizing field with
  | nil => rfl
  | cons c cs ih =>
    simp only [List.cons_append, fieldsFrom]
    split
    · rw [ih, List.append_assoc]
    · exact ih _

theorem fields_blank (cs rest : List Char) :
    fields (cs ++ ' ' :: rest) = fields cs ++ fields rest := fieldsFrom_blank [] cs rest

theorem fieldsFrom_of_no_blank (field : List Char) {cs : List Char}
    (h : ∀ c ∈ cs, isBlank c = false) : fieldsFrom field cs = finish (field ++ cs) := by
  induction cs generalizing field with
  | nil => simp [fieldsFrom]
  | cons c cs ih =>
    obtain ⟨hc, hcs⟩ := List.forall_mem_cons.mp h
    rw [fieldsFrom, if_neg (by simp [hc]), ih _ hcs, List.append_assoc]
    rfl

theorem IsField.fields_eq {cs : List Char} (h : IsField cs) : fields cs = [cs] := by
  rw [fields, fieldsFrom_of_no_blank [] h.2, List.nil_append, finish, if_neg h.1]

theorem isField_finish {field cs : List Char} (hfield : ∀ c ∈ field, isBlank c = false)
    (h : cs ∈ finish field) : IsField cs := by
  unfold finish at h
  split at h
  · cases h
  · next hne =>
    obtain rfl := List.mem_singleton.mp h
    exact ⟨hne, hfield⟩

theorem isField_of_mem_from {field cs text : List Char} (hfield : ∀ c ∈ field, isBlank c = false)
    (h : cs ∈ fieldsFrom field text) : IsField cs := by
  induction text generalizing field with
  | nil => exact isField_finish hfield h
  | cons c text ih =>
    rw [fieldsFrom] at h
    split at h
    · rcases List.mem_append.mp h with h | h
      · exact isField_finish hfield h
      · exact ih (by simp) h
    · next hc =>
      refine ih ?_ h
      intro c' hmem
      rcases List.mem_append.mp hmem with hmem | hmem
      · exact hfield c' hmem
      · rw [List.mem_singleton.mp hmem]
        exact Bool.eq_false_of_not_eq_true hc

theorem isField_of_mem {cs text : List Char} (h : cs ∈ fields text) : IsField cs :=
  isField_of_mem_from (by simp) h

/-- Texts that go one after another, each followed by a blank, before a last one. -/
def spaced (texts : List (List Char)) (last : List Char) : List Char :=
  texts.foldr (fun text rest => text ++ ' ' :: rest) last

theorem fields_spaced (texts : List (List Char)) (last : List Char) :
    fields (spaced texts last) = texts.flatMap fields ++ fields last := by
  induction texts with
  | nil => rfl
  | cons text texts ih =>
    rw [spaced, List.foldr_cons, fields_blank, List.flatMap_cons, List.append_assoc, ← ih]
    rfl

theorem flatMap_fields {texts : List (List Char)} (h : ∀ text ∈ texts, IsField text) :
    texts.flatMap fields = texts := by
  induction texts with
  | nil => rfl
  | cons text texts ih =>
    obtain ⟨htext, hrest⟩ := List.forall_mem_cons.mp h
    rw [List.flatMap_cons, htext.fields_eq, ih hrest]
    rfl

/-- They come out as they went in exactly if each is a field. -/
theorem fields_spaced_eq_iff {texts : List (List Char)} {last : List Char} :
    fields (spaced texts last) = texts ++ [last] ↔ IsField last ∧ ∀ text ∈ texts, IsField text := by
  constructor
  · intro h
    have hmem : ∀ text ∈ texts ++ [last], IsField text := by
      rw [← h]
      intro text
      exact isField_of_mem
    exact ⟨hmem last (by simp), fun text htext => hmem text (List.mem_append_left _ htext)⟩
  · intro h
    rw [fields_spaced, h.1.fields_eq, flatMap_fields h.2]

end ShellFields

namespace Estoraged
open Interaction ShellFields
set_option autoImplicit false

/-- Nothing in the text is special to the shell, but there may be blanks. -/
def Simple (text : String) : Prop := ∀ c ∈ text.toList, (isPlain c || isBlank c) = true

/-- What is relied on of `sh`: where nothing is special it splits a command into its fields,
and runs the first with the others as arguments. -/
def ShellContract (shellRuns : String → Option (List String)) : Prop :=
  ∀ command, Simple command →
    shellRuns command = some ((fields command.toList).map String.ofList)

/-- The command of `Filesystem::runMkfs`. -/
def mkfsCommand (logicalVolumePath : String) (options : List String) : String :=
  options.foldl (fun mkfsCommand s => mkfsCommand ++ s ++ " ") "mkfs.ext4 " ++ logicalVolumePath

/-- The command of `Filesystem::runFsck`. -/
def fsckCommand (logicalVolumePath options : String) : String :=
  "fsck " ++ logicalVolumePath ++ " " ++ options

theorem appended_spaced (options : List String) (command path : String) :
    (options.foldl (fun command s => command ++ s ++ " ") command ++ path).toList =
      command.toList ++ spaced (options.map String.toList) path.toList := by
  induction options generalizing command with
  | nil => simp [spaced]
  | cons option options ih =>
    rw [List.foldl_cons, ih]
    simp [spaced]

theorem mkfsCommand_spaced (path : String) (options : List String) :
    (mkfsCommand path options).toList =
      spaced ("mkfs.ext4".toList :: options.map String.toList) path.toList := by
  rw [mkfsCommand, appended_spaced]
  rfl

theorem fsckCommand_spaced (path options : String) :
    (fsckCommand path options).toList = spaced ["fsck".toList, path.toList] options.toList := by
  simp [fsckCommand, spaced]

theorem simple_spaced {texts : List String} {last : String} (hlast : Simple last)
    (htexts : ∀ text ∈ texts, Simple text) :
    ∀ c ∈ spaced (texts.map String.toList) last.toList, (isPlain c || isBlank c) = true := by
  induction texts with
  | nil => exact hlast
  | cons text texts ih =>
    obtain ⟨htext, hrest⟩ := List.forall_mem_cons.mp htexts
    intro c hc
    rw [List.map_cons, spaced, List.foldr_cons, List.mem_append, List.mem_cons] at hc
    rcases hc with hc | rfl | hc
    · exact htext c hc
    · rfl
    · exact ih hrest c hc

theorem map_ofList_eq_iff {cs : List (List Char)} {texts : List String} :
    cs.map String.ofList = texts ↔ cs = texts.map String.toList := by
  constructor
  · rintro rfl
    simp
  · rintro rfl
    simp

theorem isField_of_all {text : String} (hne : text.toList ≠ [])
    (hall : (text.toList.all fun c => !isBlank c) = true) : IsField text.toList := by
  refine ⟨hne, ?_⟩
  intro c hc
  simpa using List.all_eq_true.mp hall c hc

section Shell
variable {shellRuns : String → Option (List String)} (hshell : ShellContract shellRuns)
include hshell

theorem shellRuns_spaced {command : String} (texts : List String) {last : String}
    (hcommand : command.toList = spaced (texts.map String.toList) last.toList)
    (hlast : Simple last) (htexts : ∀ text ∈ texts, Simple text) :
    shellRuns command =
      some ((fields (spaced (texts.map String.toList) last.toList)).map String.ofList) := by
  have hsimple : Simple command := by
    unfold Simple
    rw [hcommand]
    exact simple_spaced hlast htexts
  rw [hshell command hsimple, hcommand]

/-- The command to make a filesystem runs as it was meant exactly if its arguments are all
fields. -/
theorem shellRuns_mkfs_iff {path : String} {options : List String} (hpath : Simple path)
    (hoptions : ∀ option ∈ options, Simple option) :
    shellRuns (mkfsCommand path options) = some ("mkfs.ext4" :: options ++ [path]) ↔
      IsField path.toList ∧ ∀ option ∈ options, IsField option.toList := by
  have hmkfs : Simple "mkfs.ext4" := List.all_eq_true.mp rfl
  have hfield : IsField "mkfs.ext4".toList := isField_of_all (List.cons_ne_nil _ _) rfl
  rw [shellRuns_spaced hshell ("mkfs.ext4" :: options) (mkfsCommand_spaced path options) hpath
    (List.forall_mem_cons.mpr ⟨hmkfs, hoptions⟩), Option.some.injEq, map_ofList_eq_iff,
    List.map_append, List.map_singleton, fields_spaced_eq_iff, List.map_cons,
    List.forall_mem_cons, List.forall_mem_map]
  exact and_congr_right fun _ => and_iff_right hfield

/-- The one to check it runs on the path as it was meant exactly if that is a field; the
options come after it as their own fields. -/
theorem shellRuns_fsck_iff {path options : String} (hpath : Simple path)
    (hoptions : Simple options) :
    shellRuns (fsckCommand path options) =
        some ("fsck" :: path :: (fields options.toList).map String.ofList) ↔
      IsField path.toList := by
  have hfsck : Simple "fsck" := List.all_eq_true.mp rfl
  have hfield : IsField "fsck".toList := isField_of_all (List.cons_ne_nil _ _) rfl
  rw [shellRuns_spaced hshell ["fsck", path] (fsckCommand_spaced path options) hoptions
    (List.forall_mem_cons.mpr ⟨hfsck, by simpa using hpath⟩), Option.some.injEq,
    map_ofList_eq_iff, fields_spaced]
  have hmap : ("fsck" :: path :: (fields options.toList).map String.ofList).map String.toList =
      ["fsck".toList, path.toList] ++ fields options.toList := by
    simp
  rw [hmap, List.append_cancel_right_eq]
  simp only [List.map_cons, List.map_nil, List.flatMap_cons, List.flatMap_nil, List.append_nil]
  rw [hfield.fields_eq, List.singleton_append, List.cons.injEq, and_iff_right rfl]
  constructor
  · intro h
    exact isField_of_mem (h ▸ List.mem_singleton_self path.toList)
  · exact IsField.fields_eq

end Shell

/-- A call that no handle can be part of is made outside of handles. -/
theorem outside_of_allowed {names : Names} {g : HandlePhase} {c : HostCall}
    (h : names.protocol.allows g c) (hfree : ∀ held, c ≠ .cryptFree held)
    (hofHeader : ∀ cd, ¬Names.OfHeader cd c) (honHeader : ∀ cd, ¬names.OnHeader cd c) :
    names.Outside c := by
  cases g with
  | closed => exact h
  | opened held =>
    rcases h with h | ⟨cd, -, h⟩
    · exact absurd h (hfree held)
    · exact absurd h (hofHeader cd)
  | loaded cd =>
    rcases h with h | h
    · exact absurd h (hfree (some cd))
    · exact absurd h (honHeader cd)

section MappedDevice
variable {cryptDir name : String}

theorem simple_mapped (hdir : Simple cryptDir) (hname : Simple name) :
    Simple (deviceNames cryptDir name).cryptDevicePath := by
  have hprefix : Simple "/luks-" := List.all_eq_true.mp rfl
  intro c hc
  have hmem : c ∈ cryptDir.toList ∨ c ∈ "/luks-".toList ∨ c ∈ name.toList := by
    simpa [deviceNames, or_assoc] using hc
  rcases hmem with hc | hc | hc
  · exact hdir c hc
  · exact hprefix c hc
  · exact hname c hc

theorem isField_mapped_iff :
    IsField (deviceNames cryptDir name).cryptDevicePath.toList ↔
      ∀ c ∈ cryptDir.toList ++ name.toList, isBlank c = false := by
  have hprefix : IsField "/luks-".toList := isField_of_all (List.cons_ne_nil _ _) rfl
  constructor
  · rintro ⟨-, h⟩ c hc
    apply h c
    rcases List.mem_append.mp hc with hc | hc <;> simp [deviceNames, hc]
  · intro h
    refine ⟨by simp [deviceNames], ?_⟩
    intro c hc
    have hmem : c ∈ cryptDir.toList ∨ c ∈ "/luks-".toList ∨ c ∈ name.toList := by
      simpa [deviceNames, or_assoc] using hc
    rcases hmem with hc | hc | hc
    · exact h c (List.mem_append_left _ hc)
    · exact hprefix.2 c hc
    · exact h c (List.mem_append_right _ hc)

end MappedDevice

/-- What the calls that go through a shell make it run, if that is what was meant. -/
def HostCall.Commanded (shellRuns : String → Option (List String)) (names : Names)
    (meant : Prop) : HostCall → Prop
  | .runMkfs path options =>
    shellRuns (mkfsCommand path options) =
      some ["mkfs.ext4", "-E", "discard", names.cryptDevicePath] ↔ meant
  | .runFsck path options =>
    shellRuns (fsckCommand path options) =
      some ["fsck", names.cryptDevicePath, "-t", "ext4", "-p"] ↔ meant
  | _ => True

theorem commanded_of_allowed {shellRuns : String → Option (List String)}
    (hshell : ShellContract shellRuns) {cryptDir name : String} (hdir : Simple cryptDir)
    (hname : Simple name) {g : HandlePhase} {c : HostCall}
    (h : (deviceNames cryptDir name).protocol.allows g c) :
    c.Commanded shellRuns (deviceNames cryptDir name)
      (∀ c ∈ cryptDir.toList ++ name.toList, isBlank c = false) := by
  have hpath := simple_mapped hdir hname
  cases c with
  | runMkfs path options =>
    obtain ⟨rfl, rfl⟩ : _ ∧ _ := outside_of_allowed h (by simp) (fun _ => id) (fun _ => id)
    have hoptions : ∀ option ∈ ["-E", "discard"], Simple option ∧ IsField option.toList := by
      simp only [List.forall_mem_cons]
      refine ⟨⟨List.all_eq_true.mp rfl, isField_of_all (List.cons_ne_nil _ _) rfl⟩,
        ⟨List.all_eq_true.mp rfl, isField_of_all (List.cons_ne_nil _ _) rfl⟩, by simp⟩
    refine (shellRuns_mkfs_iff hshell hpath fun option ho => (hoptions option ho).1).trans ?_
    rw [isField_mapped_iff]
    exact and_iff_left fun option ho => (hoptions option ho).2
  | runFsck path options =>
    obtain ⟨rfl, rfl⟩ : _ ∧ _ := outside_of_allowed h (by simp) (fun _ => id) (fun _ => id)
    have hoptions : Simple "-t ext4 -p" := List.all_eq_true.mp rfl
    exact (shellRuns_fsck_iff hshell hpath hoptions).trans isField_mapped_iff
  | _ => trivial

/-- Where nothing in the names is special to the shell, a request makes it run mkfs and fsck
on the mapped device of its object exactly if there is no blank in them. -/
theorem commands_run_as_meant {shellRuns : String → Option (List String)}
    (hshell : ShellContract shellRuns) {σ : Type} {cryptDir name : String}
    (hdir : Simple cryptDir) (hname : Simple name) (request : Request) (env : Env hostPorts σ)
    (s : σ) :
    Ensures env ((deviceNames cryptDir name).request request) s fun tr _ _ =>
      ∀ ev ∈ tr, HostCall.Commanded shellRuns (deviceNames cryptDir name)
        (∀ c ∈ cryptDir.toList ++ name.toList, isBlank c = false) ev.call := by
  refine (((deviceNames cryptDir name).closes_request request).ensures env s).mono ?_
  intro tr out s' h ev hev
  obtain ⟨g, hallowed⟩ := h.1.allowed ev hev
  exact commanded_of_allowed hshell hdir hname hallowed

/-- A shell that splits, and gives up where a character may be special. -/
def splittingShell (command : String) : Option (List String) :=
  if command.toList.all fun c => isPlain c || isBlank c then
    some ((fields command.toList).map String.ofList)
  else none

theorem splittingShell_contract : ShellContract splittingShell := by
  intro command hsimple
  exact if_pos (List.all_eq_true.mpr hsimple)

/-- The first eMMC of a board has a name that the shell takes as it is. -/
theorem commands_run_as_meant_mmcblk0 :
    (∀ c ∈ "/dev/mapper".toList ++ "mmcblk0".toList, isBlank c = false) ∧
      Ensures (hosted "/dev/mapper")
        ((deviceNames "/dev/mapper" "mmcblk0").request (.method (.formatLuks [112, 119] .ext4)))
        boardHost fun tr _ _ =>
          ∀ ev ∈ tr, HostCall.Commanded splittingShell (deviceNames "/dev/mapper" "mmcblk0")
            (∀ c ∈ "/dev/mapper".toList ++ "mmcblk0".toList, isBlank c = false) ev.call := by
  have hdir : IsField "/dev/mapper".toList := isField_of_all (List.cons_ne_nil _ _) rfl
  have hname : IsField "mmcblk0".toList := isField_of_all (List.cons_ne_nil _ _) rfl
  refine ⟨?_, commands_run_as_meant splittingShell_contract (List.all_eq_true.mp rfl)
    (List.all_eq_true.mp rfl) _ _ _⟩
  intro c hc
  rcases List.mem_append.mp hc with hc | hc
  · exact hdir.2 c hc
  · exact hname.2 c hc

end Estoraged
