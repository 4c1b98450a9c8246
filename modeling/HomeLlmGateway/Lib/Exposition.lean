import HomeLlmGateway.Lib.Decimal
import HomeLlmGateway.Lib.Split

/-! # A text format for samples

Lines of text that name a number each, grouped into families: a name and a value, with a label and its key in
braces between them if there is one, after two comment lines for the family. `readText` is what a reader makes
of such a text. What it reads are the samples that were written, family by family (`readText_text`); and if the
families have different names, those under a name are those of its family (`samplesOf_text`). -/

namespace HomeLlmGateway.Lib.Exposition

open HomeLlmGateway.Lib.Decimal HomeLlmGateway.Lib.Split

/-! ### Writing -/

/-- A number with its name, and with a label and its value. -/
structure Sample where
  name : String
  label : Option (String × String)
  value : ℕ
  deriving DecidableEq

/-- A family, whose samples have one name. -/
structure Family where
  name : String
  help : String
  kind : String
  samples : List (Option (String × String) × ℕ)
  /-- whether the comments are written if there is no sample -/
  announced : Bool

def sampleLine (name : String) : Option (String × String) × ℕ → List Char
  | (none, value) => name.toList ++ ' ' :: printNat value
  | (some (label, key), value) =>
    name.toList ++ '\x7b' :: (label.toList ++ ('=' :: ['\x22']) ++
      (key.toList ++ ('\x22' :: ['\x7d', ' ']) ++ printNat value))

def Family.lines (f : Family) : List (List Char) :=
  if f.samples = [] ∧ f.announced = false then []
  else ("# HELP ".toList ++ f.name.toList ++ ' ' :: f.help.toList) ::
    ("# TYPE ".toList ++ f.name.toList ++ ' ' :: f.kind.toList) :: f.samples.map (sampleLine f.name)

/-- The text, with a line break after each line. -/
def text (fs : List Family) : String :=
  String.ofList ((fs.flatMap Family.lines).flatMap fun line => line ++ ['\n'])

/-! ### Reading -/

def readSample (line : List Char) : Option Sample :=
  if line.head? = some '#' then none
  else
    match splitOnce ['\x7b'] line with
    | some (name, rest) =>
      (splitOnce ('=' :: ['\x22']) rest).bind fun p =>
        (splitOnce ('\x22' :: ['\x7d', ' ']) p.2).bind fun q =>
          (readNat q.2).map fun value =>
            ⟨String.ofList name, some (String.ofList p.1, String.ofList q.1), value⟩
    | none =>
      (splitOnce [' '] line).bind fun p => (readNat p.2).map fun value => ⟨String.ofList p.1, none, value⟩

def readText (s : String) : List Sample := (s.toList.splitOn '\n').filterMap readSample

/-- The samples under a name: their labels and values, in the order of the text. -/
def samplesOf (s : String) (name : String) : List (Option (String × String) × ℕ) :=
  ((readText s).filter fun x => x.name = name).map fun x => (x.label, x.value)

/-! ### What is read -/

/-- A family whose texts do not get in the way of the format. -/
structure Family.Plain (f : Family) : Prop where
  name : ∀ c ∈ f.name.toList, c ∉ ['#', '\x7b', ' ', '\n']
  help : '\n' ∉ f.help.toList
  kind : '\n' ∉ f.kind.toList
  labels : ∀ label key value, (some (label, key), value) ∈ f.samples →
    (∀ c ∈ label.toList, c ∉ ['=', '\n']) ∧ ∀ c ∈ key.toList, c ∉ ['\x22', '\n']

section reading

variable {f : Family}

theorem printNat_plain {n : ℕ} {c : Char} (h : c ∈ printNat n) : c ∉ ['#', '\x7b', ' ', '\n'] := by
  have hdigit := isDigit_of_mem_printNat h
  intro hc
  simp only [List.mem_cons, List.not_mem_nil, or_false] at hc
  rcases hc with rfl | rfl | rfl | rfl <;> exact absurd hdigit (by decide)

theorem head?_sampleLine {name : String} (hname : ∀ c ∈ name.toList, c ∉ ['#', '\x7b', ' ', '\n'])
    (x : Option (String × String) × ℕ) : (sampleLine name x).head? ≠ some '#' := by
  have hhead : ∀ rest : List Char, rest.head? ≠ some '#' → (name.toList ++ rest).head? ≠ some '#' := by
    intro rest hrest
    cases hn : name.toList with
    | nil => exact hrest
    | cons c cs =>
      rintro h
      cases h
      exact hname '#' (by rw [hn]; exact List.mem_cons_self) (by simp)
  rcases x with ⟨_ | ⟨label, key⟩, value⟩
  · exact hhead _ (by simp)
  · exact hhead _ (by simp)

theorem readSample_sampleLine (h : f.Plain) {x : Option (String × String) × ℕ} (hx : x ∈ f.samples) :
    readSample (sampleLine f.name x) = some ⟨f.name, x.1, x.2⟩ := by
  have hno : ∀ c ∈ ['#', '\x7b', ' ', '\n'], c ∉ f.name.toList := fun c hc hm => h.name c hm hc
  unfold readSample
  rw [if_neg (head?_sampleLine h.name x)]
  rcases x with ⟨_ | ⟨label, key⟩, value⟩
  · have hnone : splitOnce ['\x7b'] (sampleLine f.name (none, value)) = none := by
      by_contra hne
      obtain ⟨⟨a, b⟩, hab⟩ := Option.ne_none_iff_exists'.mp hne
      have hmem : '\x7b' ∈ f.name.toList ++ ' ' :: printNat value := by
        rw [sampleLine] at hab
        rw [(splitOnce_eq_some_iff.mp hab).1]
        simp
      rcases List.mem_append.mp hmem with hm | hm
      · exact hno '\x7b' (by simp) hm
      · rcases List.mem_cons.mp hm with hm | hm
        · exact absurd hm (by decide)
        · exact printNat_plain hm (by simp)
    have hsplit : splitOnce [' '] (sampleLine f.name (none, value)) = some (f.name.toList, printNat value) :=
      splitOnce_eq_some_iff.mpr ⟨rfl, hno ' ' (by simp)⟩
    rw [hnone, hsplit]
    simp
  · obtain ⟨hlabel, hkey⟩ := h.labels label key value hx
    have h1 : splitOnce ['\x7b'] (sampleLine f.name (some (label, key), value)) = some (f.name.toList,
        label.toList ++ ('=' :: ['\x22']) ++ (key.toList ++ ('\x22' :: ['\x7d', ' ']) ++ printNat value)) :=
      splitOnce_eq_some_iff.mpr ⟨rfl, hno '\x7b' (by simp)⟩
    rw [h1]
    dsimp only
    rw [splitOnce_append _ fun hm => hlabel '=' hm (by simp), Option.bind_some,
      splitOnce_append _ fun hm => hkey '\x22' hm (by simp), Option.bind_some, readNat_printNat, Option.map_some]
    simp

theorem no_newline_sampleLine (h : f.Plain) {x : Option (String × String) × ℕ} (hx : x ∈ f.samples) :
    '\n' ∉ sampleLine f.name x := by
  have hname : '\n' ∉ f.name.toList := fun hm => h.name _ hm (by simp)
  have hvalue : '\n' ∉ printNat x.2 := fun hm => printNat_plain hm (by simp)
  rcases x with ⟨_ | ⟨label, key⟩, value⟩
  · simp [sampleLine, hname, hvalue]
  · obtain ⟨hlabel, hkey⟩ := h.labels label key value hx
    have hl : '\n' ∉ label.toList := fun hm => hlabel _ hm (by simp)
    have hk : '\n' ∉ key.toList := fun hm => hkey _ hm (by simp)
    simp [sampleLine, hname, hvalue, hl, hk]

theorem no_newline_lines (h : f.Plain) {line : List Char} (hline : line ∈ f.lines) : '\n' ∉ line := by
  have hname : '\n' ∉ f.name.toList := fun hm => h.name _ hm (by simp)
  unfold Family.lines at hline
  split_ifs at hline
  · cases hline
  · rcases List.mem_cons.mp hline with rfl | hline
    · simp [hname, h.help]
    · rcases List.mem_cons.mp hline with rfl | hline
      · simp [hname, h.kind]
      · obtain ⟨x, hx, rfl⟩ := List.mem_map.mp hline
        exact no_newline_sampleLine h hx

/-- The samples of a family, with its name. -/
def Family.read (f : Family) : List Sample := f.samples.map fun x => ⟨f.name, x.1, x.2⟩

theorem filterMap_lines (h : f.Plain) : f.lines.filterMap readSample = f.read := by
  have hcomment : ∀ rest : List Char, readSample ('#' :: rest) = none := fun rest => rfl
  have hsamples : ∀ l : List (Option (String × String) × ℕ), (∀ x ∈ l, x ∈ f.samples) →
      (l.map (sampleLine f.name)).filterMap readSample = l.map fun x => (⟨f.name, x.1, x.2⟩ : Sample) := by
    intro l hl
    induction l with
    | nil => rfl
    | cons x l ih =>
      rw [List.map_cons, List.filterMap_cons_some (readSample_sampleLine h (hl x (by simp))),
        ih fun y hy => hl y (by simp [hy]), List.map_cons]
  unfold Family.lines Family.read
  split_ifs with hempty
  · simp [hempty.1]
  · have h1 : readSample ("# HELP ".toList ++ f.name.toList ++ ' ' :: f.help.toList) = none := hcomment _
    have h2 : readSample ("# TYPE ".toList ++ f.name.toList ++ ' ' :: f.kind.toList) = none := hcomment _
    rw [List.filterMap_cons_none h1, List.filterMap_cons_none h2]
    exact hsamples f.samples fun x hx => hx

theorem flatMap_newline (lines : List (List Char)) : (lines.flatMap fun line => line ++ ['\n']) =
    ['\n'].intercalate (lines ++ [[]]) := by
  induction lines with
  | nil => rfl
  | cons line lines ih =>
    rw [List.flatMap_cons, ih, List.cons_append, List.intercalate_cons_of_ne_nil (by simp)]

/-- **What was written is read**, and nothing else. -/
theorem readText_text {fs : List Family} (h : ∀ f ∈ fs, f.Plain) : readText (text fs) = fs.flatMap Family.read := by
  have hlines : ∀ line ∈ fs.flatMap Family.lines ++ [[]], '\n' ∉ line := by
    intro line hline
    rcases List.mem_append.mp hline with hline | hline
    · obtain ⟨f, hf, hline⟩ := List.mem_flatMap.mp hline
      exact no_newline_lines (h f hf) hline
    · rw [List.mem_singleton.mp hline]
      simp
  have hempty : readSample [] = none := rfl
  rw [readText, text, String.toList_ofList, flatMap_newline, List.splitOn_intercalate _ hlines (by simp),
    List.filterMap_append, List.filterMap_cons_none hempty, List.filterMap_nil, List.append_nil,
    List.filterMap_flatMap]
  exact List.flatMap_congr fun f hf => filterMap_lines (h f hf)

/-- **The samples under a name** are those of the family of that name. -/
theorem samplesOf_text {fs : List Family} (h : ∀ f ∈ fs, f.Plain) (hnames : (fs.map Family.name).Nodup)
    (hf : f ∈ fs) : samplesOf (text fs) f.name = f.samples := by
  have hown : f.read.filter (fun x => decide (x.name = f.name)) = f.read := by
    refine List.filter_eq_self.mpr fun x hx => ?_
    obtain ⟨y, -, rfl⟩ := List.mem_map.mp hx
    exact decide_eq_true rfl
  have hother : ∀ g : Family, g.name ≠ f.name → g.read.filter (fun x => decide (x.name = f.name)) = [] := by
    intro g hg
    refine List.filter_eq_nil_iff.mpr fun x hx => ?_
    obtain ⟨y, -, rfl⟩ := List.mem_map.mp hx
    simpa using hg
  have hread : (fs.flatMap Family.read).filter (fun x => decide (x.name = f.name)) = f.read := by
    clear h
    induction fs with
    | nil => cases hf
    | cons g fs ih =>
      rw [List.map_cons, List.nodup_cons] at hnames
      rw [List.flatMap_cons, List.filter_append]
      rcases List.mem_cons.mp hf with rfl | hf
      · -- no other family has its name
        have hrest : (fs.flatMap Family.read).filter (fun x => decide (x.name = f.name)) = [] := by
          rw [List.filter_flatMap, List.flatMap_eq_nil_iff]
          exact fun g hg => hother g fun he => hnames.1 (he ▸ List.mem_map_of_mem hg)
        rw [hown, hrest, List.append_nil]
      · rw [hother g fun he => hnames.1 (he ▸ List.mem_map_of_mem hf), ih hnames.2 hf, List.nil_append]
  rw [samplesOf, readText_text h, hread, Family.read, List.map_map]
  exact List.map_id _

end reading

end HomeLlmGateway.Lib.Exposition
