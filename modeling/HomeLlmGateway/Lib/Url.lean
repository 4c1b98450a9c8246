import HomeLlmGateway.Lib.Split

/-! # The path of a URL

What the WHATWG URL parser makes of the path of a URL with a special scheme and an authority: it strips
controls and spaces at both ends, deletes tabs and newlines, cuts the fragment and the query, reads a
backslash as a slash and resolves the dot segments, also in their `%2e` spellings. That it percent-encodes
some of the other characters is left out: neither dots, digits, letters nor `%` are among them.

A path is walked segment by segment (`enter`), and a walk is described by how deep it is (`depth`) and
whether it climbs above its start (`stays`): it ends below the segment `a` exactly if it enters `a` at the
root at some point and does not climb above it from there on (`head_walk_iff`). -/

namespace HomeLlmGateway.Lib.Url

open HomeLlmGateway.Lib.Split

/-- A segment of a path. -/
abbrev Segment := List Char

/-! ### The parser -/

/-- A C0 control or space. -/
def c0OrSpace (c : Char) : Bool := c.toNat ≤ 32

/-- An ASCII tab or newline. -/
def tabOrNewline (c : Char) : Bool := c == '\t' || c == '\n' || c == '\r'

/-- What separates the segments. -/
def slash (c : Char) : Bool := c == '/' || c == '\\'

/-- Without the controls and spaces at the end. -/
def stripEnd (s : List Char) : List Char := (s.reverse.dropWhile c0OrSpace).reverse

/-- Without the controls and spaces at both ends. -/
def strip (s : List Char) : List Char := stripEnd (s.dropWhile c0OrSpace)

/-- What is read of the input, up to the query and the fragment. -/
def cut (s : List Char) : List Char :=
  ((strip s).filter fun c => !tabOrNewline c).takeWhile fun c => c != '?' && c != '#'

/-- Behind the scheme, the slashes after it and the authority. -/
def afterAuthority (s : List Char) : List Char :=
  (((s.dropWhile (· != ':')).drop 1).dropWhile slash).dropWhile fun c => !slash c

/-- A single-dot segment. -/
def singleDot (seg : Segment) : Bool := seg == ['.'] || seg.map Char.toLower == "%2e".toList

/-- A double-dot segment. -/
def doubleDot (seg : Segment) : Bool :=
  seg == ['.', '.'] || seg.map Char.toLower == ".%2e".toList ||
    seg.map Char.toLower == "%2e.".toList || seg.map Char.toLower == "%2e%2e".toList

/-- A segment that is neither. -/
def ordinary (seg : Segment) : Bool := !singleDot seg && !doubleDot seg

/-- The path after one more segment. -/
def enter (path : List Segment) (seg : Segment) : List Segment :=
  if doubleDot seg then path.dropLast else if singleDot seg then path else path ++ [seg]

/-- The path of the segments: a dot segment at the end leaves an empty one. -/
def resolve (segs : List Segment) : List Segment :=
  segs.foldl enter [] ++ if segs.getLast?.any fun seg => !ordinary seg then [[]] else []

/-- The segments of a path that starts with a slash. -/
def segments (s : List Char) : List Segment := (s.drop 1).splitOnP slash

/-- A path as text. -/
def pathname (path : List Segment) : List Char := path.flatMap fun seg => '/' :: seg

/-- The path that the parser finds. -/
def parsePath (url : List Char) : List Char := pathname (resolve (segments (afterAuthority (cut url))))

/-- The text before the path: a scheme and an authority, without what the parser changes or stops at. -/
def IsOrigin (s : List Char) : Prop :=
  ∃ scheme authority, s = scheme ++ "://".toList ++ authority ∧ authority ≠ [] ∧
    (∀ c ∈ scheme, c0OrSpace c = false ∧ c ∉ [':', '?', '#']) ∧
    ∀ c ∈ authority, c0OrSpace c = false ∧ c ∉ ['/', '\\', '?', '#']

section reading

variable {s t : List Char} {c : Char}

theorem tabOrNewline_of_c0OrSpace (h : c0OrSpace c = false) : tabOrNewline c = false := by
  have h9 : c0OrSpace '\t' = true ∧ c0OrSpace '\n' = true ∧ c0OrSpace '\r' = true := by decide
  unfold tabOrNewline
  simp only [Bool.or_eq_false_iff, beq_eq_false_iff_ne]
  refine ⟨⟨?_, ?_⟩, ?_⟩
  · rintro rfl
    rw [h9.1] at h
    cases h
  · rintro rfl
    rw [h9.2.1] at h
    cases h
  · rintro rfl
    rw [h9.2.2] at h
    cases h

theorem stripEnd_append_cons (hc : c0OrSpace c = false) (s t : List Char) :
    stripEnd (s ++ c :: t) = s ++ c :: stripEnd t := by
  unfold stripEnd
  rw [List.reverse_append, List.reverse_cons, List.append_assoc, List.dropWhile_append]
  split_ifs with h
  · rw [List.isEmpty_iff.mp h]
    simp [hc]
  · simp

theorem strip_cons (hc : c0OrSpace c = false) (t : List Char) : strip (c :: t) = c :: stripEnd t := by
  unfold strip
  rw [List.dropWhile_cons, if_neg (by rw [hc]; simp)]
  exact stripEnd_append_cons hc [] t

/-- What the parser reads of the input does not depend on an origin before it. -/
theorem cut_append (hs : ∀ c ∈ s, c0OrSpace c = false ∧ c ∉ ['?', '#']) (hc : c0OrSpace c = false)
    (t : List Char) : cut (s ++ c :: t) = s ++ cut (c :: t) := by
  have hstrip : strip (s ++ c :: t) = s ++ strip (c :: t) := by
    cases s with
    | nil => rfl
    | cons d s =>
      rw [List.cons_append, strip_cons (hs d List.mem_cons_self).1, stripEnd_append_cons hc,
        strip_cons hc]
      rfl
  have hfilter : s.filter (fun c => !tabOrNewline c) = s := by
    rw [List.filter_eq_self]
    intro d hd
    rw [tabOrNewline_of_c0OrSpace (hs d hd).1]
    rfl
  unfold cut
  rw [hstrip, List.filter_append, hfilter, List.takeWhile_append_of_pos]
  intro d hd
  have := (hs d hd).2
  simp only [List.mem_cons, List.not_mem_nil, or_false, not_or] at this
  simp [this.1, this.2]

/-- **Behind an origin comes the path.** -/
theorem afterAuthority_append (hs : IsOrigin s) (t : List Char) : afterAuthority (s ++ '/' :: t) = '/' :: t := by
  obtain ⟨scheme, authority, rfl, hne, hscheme, hauth⟩ := hs
  have hcolon : ∀ c ∈ scheme, (c != ':') = true := by
    intro c hc
    have := (hscheme c hc).2
    simp only [List.mem_cons, List.not_mem_nil, or_false, not_or] at this
    simp [this.1]
  have hslash : ∀ c ∈ authority, slash c = false := by
    intro c hc
    have := (hauth c hc).2
    simp only [List.mem_cons, List.not_mem_nil, or_false, not_or] at this
    simp [slash, this.1, this.2.1]
  obtain ⟨d, authority, rfl⟩ := List.exists_cons_of_ne_nil hne
  have hd := hslash d List.mem_cons_self
  have hsplit : scheme ++ "://".toList ++ d :: authority ++ '/' :: t =
      scheme ++ ':' :: '/' :: '/' :: (d :: authority ++ '/' :: t) := by simp
  unfold afterAuthority
  rw [hsplit, List.dropWhile_append_of_pos hcolon]
  have h1 : (':' :: '/' :: '/' :: (d :: authority ++ '/' :: t)).dropWhile (· != ':') =
      ':' :: '/' :: '/' :: (d :: authority ++ '/' :: t) := by simp
  have h2 : ('/' :: '/' :: (d :: authority ++ '/' :: t)).dropWhile slash = d :: authority ++ '/' :: t := by
    have h0 : slash '/' = true := rfl
    rw [List.dropWhile_cons, if_pos h0, List.dropWhile_cons, if_pos h0, List.cons_append,
      List.dropWhile_cons, if_neg (by rw [hd]; simp)]
  rw [h1, List.drop_one, List.tail_cons, h2, List.dropWhile_append_of_pos fun c hc => by rw [hslash c hc]; rfl]
  simp [slash]

theorem cut_slash (t : List Char) : ∃ t', cut ('/' :: t) = '/' :: t' := by
  have hc : c0OrSpace '/' = false := by decide
  have hk : (!tabOrNewline '/') = true := by decide
  have hq : ('/' != '?' && '/' != '#') = true := by decide
  unfold cut
  rw [strip_cons hc, List.filter_cons, if_pos hk, List.takeWhile_cons, if_pos hq]
  exact ⟨_, rfl⟩

/-- **The path that the parser finds behind an origin.** -/
theorem parsePath_append (hs : IsOrigin s) (t : List Char) :
    parsePath (s ++ '/' :: t) = pathname (resolve (segments (cut ('/' :: t)))) := by
  have hplain : ∀ c ∈ s, c0OrSpace c = false ∧ c ∉ ['?', '#'] := by
    obtain ⟨scheme, authority, rfl, -, hscheme, hauth⟩ := hs
    have hmid : ∀ c ∈ "://".toList, c0OrSpace c = false ∧ c ∉ ['?', '#'] :=
      List.forall_iff_forall_mem.mp (by decide)
    intro c hc
    rcases List.mem_append.mp hc with hc | hc
    · rcases List.mem_append.mp hc with hc | hc
      · obtain ⟨h0, hnot⟩ := hscheme c hc
        exact ⟨h0, fun hm => hnot (List.mem_cons_of_mem _ hm)⟩
      · exact hmid c hc
    · obtain ⟨h0, hnot⟩ := hauth c hc
      exact ⟨h0, fun hm => hnot (List.mem_cons_of_mem _ (List.mem_cons_of_mem _ hm))⟩
  obtain ⟨t', ht'⟩ := cut_slash t
  unfold parsePath
  rw [cut_append hplain (by decide), ht', afterAuthority_append hs]

theorem cut_prefix (hc : c0OrSpace c = false)
    (h : ∀ d ∈ (c :: t).takeWhile (· != '?'), tabOrNewline d = false) :
    cut (c :: t) <+: (c :: t).takeWhile (· != '?') := by
  -- the characters that the two read alike, one after the other
  have hread : ∀ s t : List Char, s <+: t → (∀ d ∈ t.takeWhile (· != '?'), tabOrNewline d = false) →
      (s.filter fun d => !tabOrNewline d).takeWhile (fun d => d != '?' && d != '#') <+:
        t.takeWhile (· != '?') := by
    intro s
    induction s with
    | nil => exact fun t _ _ => List.nil_prefix
    | cons d s ih =>
      rintro t ⟨u, rfl⟩ ht
      rw [List.cons_append, List.takeWhile_cons] at ht ⊢
      by_cases hq : d = '?'
      · subst hq
        exact List.nil_prefix
      · have hd : (d != '?') = true := bne_iff_ne.mpr hq
        rw [if_pos hd] at ht ⊢
        rw [List.filter_cons, if_pos (by rw [ht d List.mem_cons_self]; rfl), List.takeWhile_cons]
        split_ifs
        · exact List.cons_prefix_cons.mpr
            ⟨rfl, ih _ (List.prefix_append s u) fun d' hd' => ht d' (List.mem_cons_of_mem _ hd')⟩
        · exact List.nil_prefix
  have hstrip : strip (c :: t) <+: c :: t := by
    rw [strip_cons hc]
    refine List.cons_prefix_cons.mpr ⟨rfl, ?_⟩
    have hsuffix : t.reverse.dropWhile c0OrSpace <:+ t.reverse := List.dropWhile_suffix _
    have := List.reverse_prefix.mpr hsuffix
    rwa [List.reverse_reverse] at this
  exact hread _ _ hstrip h

end reading

/-! ### Walks -/

/-- How deep the path is after a walk that starts at depth `d`. -/
def depth : ℕ → List Segment → ℕ
  | d, [] => d
  | d, seg :: segs =>
    if doubleDot seg then depth (d - 1) segs else if singleDot seg then depth d segs
    else depth (d + 1) segs

/-- Whether a walk that starts `d` below a directory never climbs above that. -/
def stays : ℕ → List Segment → Bool
  | _, [] => true
  | d, seg :: segs =>
    if doubleDot seg then d != 0 && stays (d - 1) segs else if singleDot seg then stays d segs
    else stays (d + 1) segs

/-- The segments that a path is walked by: an ordinary last one is only looked up. -/
def dirs (segs : List Segment) : List Segment :=
  if segs.getLast?.any fun seg => !ordinary seg then segs else segs.dropLast

/-- The walk enters `a` at the root and does not climb above it from there on. -/
def Inside (a : Segment) (segs : List Segment) : Prop :=
  ∃ pre post, segs = pre ++ a :: post ∧ depth 0 pre = 0 ∧ stays 0 post = true

section walks

variable {a seg : Segment} {path segs : List Segment}

theorem ordinary_iff : ordinary seg = true ↔ singleDot seg = false ∧ doubleDot seg = false := by
  simp [ordinary]

theorem enter_doubleDot (h : doubleDot seg = true) : enter path seg = path.dropLast := by
  simp [enter, h]

theorem enter_singleDot (hd : doubleDot seg = false) (hs : singleDot seg = true) :
    enter path seg = path := by
  simp [enter, hd, hs]

theorem enter_ordinary (h : ordinary seg = true) : enter path seg = path ++ [seg] := by
  obtain ⟨hs, hd⟩ := ordinary_iff.mp h
  simp [enter, hs, hd]

theorem depth_cons : depth path.length (seg :: segs) = depth (enter path seg).length segs := by
  unfold enter
  rw [depth]
  split_ifs
  · rw [List.length_dropLast]
  · rfl
  · rw [List.length_append]
    rfl

theorem entered_cons : (∃ pre post, seg :: segs = pre ++ a :: post ∧ depth path.length pre = 0 ∧
      stays 0 post = true) ↔
    (seg = a ∧ path = [] ∧ stays 0 segs = true) ∨
      ∃ pre post, segs = pre ++ a :: post ∧ depth (enter path seg).length pre = 0 ∧
        stays 0 post = true := by
  constructor
  · rintro ⟨pre, post, heq, hd, hs⟩
    cases pre with
    | nil =>
      cases heq
      exact Or.inl ⟨rfl, List.length_eq_zero_iff.mp hd, hs⟩
    | cons seg' pre =>
      cases heq
      exact Or.inr ⟨pre, post, rfl, depth_cons.symm.trans hd, hs⟩
  · rintro (⟨rfl, rfl, hs⟩ | ⟨pre, post, rfl, hd, hs⟩)
    · exact ⟨[], segs, rfl, rfl, hs⟩
    · exact ⟨seg :: pre, post, rfl, depth_cons.trans hd, hs⟩

/-- A walk that goes on below the first segment does so after one segment. -/
theorem stays_enter (ha : ordinary a = true) :
    ((enter path seg).head? = some a ∧ stays ((enter path seg).length - 1) segs = true) ↔
      (path.head? = some a ∧ stays (path.length - 1) (seg :: segs) = true) ∨
        (seg = a ∧ path = [] ∧ stays 0 segs = true) := by
  obtain ⟨has, had⟩ := ordinary_iff.mp ha
  by_cases hd : doubleDot seg = true
  · have hne : seg ≠ a := by
      rintro rfl
      rw [hd] at had
      cases had
    rw [enter_doubleDot hd]
    match path with
    | [] => simp [hne]
    | [x] => simp [stays, hd, hne]
    | x :: y :: path => simp [stays, hd, hne]
  · rw [Bool.not_eq_true] at hd
    by_cases hs : singleDot seg = true
    · have hne : seg ≠ a := by
        rintro rfl
        rw [hs] at has
        cases has
      rw [enter_singleDot hd hs]
      simp [stays, hd, hs, hne]
    · rw [Bool.not_eq_true] at hs
      rw [enter_ordinary (ordinary_iff.mpr ⟨hs, hd⟩)]
      cases path with
      | nil => simp [stays]
      | cons x path => simp [stays, hd, hs]

/-- **Where a walk ends up**: below the first segment of the path that it starts from, if it does not climb
above that, or below an `a` that it enters at the root. -/
theorem head_walk_iff (ha : ordinary a = true) : ∀ (segs path : List Segment),
    (segs.foldl enter path).head? = some a ↔
      (path.head? = some a ∧ stays (path.length - 1) segs = true) ∨
        ∃ pre post, segs = pre ++ a :: post ∧ depth path.length pre = 0 ∧ stays 0 post = true
  | [], path => by
    simp [stays]
  | seg :: segs, path => by
    rw [List.foldl_cons, head_walk_iff ha segs, stays_enter ha, entered_cons, or_assoc]

theorem head_walk_root_iff (ha : ordinary a = true) :
    (segs.foldl enter []).head? = some a ↔ Inside a segs := by
  rw [head_walk_iff ha]
  simp [Inside]

theorem concat_below_iff {y : Segment} :
    (∃ x rest, path ++ [y] = a :: x :: rest) ↔ path.head? = some a := by
  match path with
  | [] => simp
  | [z] => simp
  | z :: w :: path => simp

/-- **Where a path lies**: below the segment that its directory part ends in. -/
theorem resolve_below_iff (ha : ordinary a = true) :
    (∃ x rest, resolve segs = a :: x :: rest) ↔ Inside a (dirs segs) := by
  rw [← head_walk_root_iff ha]
  unfold resolve dirs
  rcases List.eq_nil_or_concat segs with rfl | ⟨init, last, rfl⟩
  · simp
  · rw [List.concat_eq_append, List.getLast?_concat, Option.any_some, List.dropLast_concat]
    cases hl : ordinary last with
    | true =>
      simp only [Bool.not_true, Bool.false_eq_true, if_false, List.append_nil]
      rw [List.foldl_concat, enter_ordinary hl]
      exact concat_below_iff
    | false =>
      simp only [Bool.not_false, if_true]
      exact concat_below_iff

theorem dots_of_plain (h : ¬ "%2e".toList <:+: seg.map Char.toLower) :
    (singleDot seg = true ↔ seg = ['.']) ∧ (doubleDot seg = true ↔ seg = ['.', '.']) := by
  have hne : ∀ text : List Char, "%2e".toList <:+: text → (seg.map Char.toLower == text) = false := by
    intro text htext
    rw [beq_eq_false_iff_ne]
    rintro rfl
    exact h htext
  have h1 := hne "%2e".toList (List.infix_refl _)
  have h2 := hne ".%2e".toList ⟨['.'], [], rfl⟩
  have h3 := hne "%2e.".toList ⟨[], ['.'], rfl⟩
  have h4 := hne "%2e%2e".toList ⟨[], "%2e".toList, rfl⟩
  unfold singleDot doubleDot
  rw [h1, h2, h3, h4]
  simp

/-- A walk through ordinary segments keeps them. -/
theorem foldl_ordinary : ∀ {segs path : List Segment}, (∀ seg ∈ segs, ordinary seg = true) →
    segs.foldl enter path = path ++ segs
  | [], path, _ => by simp
  | seg :: segs, path, h => by
    rw [List.foldl_cons, enter_ordinary (h seg List.mem_cons_self),
      foldl_ordinary fun seg' hs => h seg' (List.mem_cons_of_mem _ hs), List.append_assoc]
    rfl

/-- With dots at most in the last segment, only a path of two segments can leave the first. -/
theorem inside_dirs_iff {mid : List Segment} {last : Segment}
    (h : ∀ seg ∈ a :: mid, ordinary seg = true) :
    Inside a (dirs (a :: mid ++ [last])) ↔ ¬ (mid = [] ∧ doubleDot last = true) := by
  rw [← head_walk_root_iff (h a List.mem_cons_self)]
  have hwalk : (a :: mid).foldl enter [] = a :: mid := foldl_ordinary h
  unfold dirs
  rw [List.getLast?_concat, Option.any_some, List.dropLast_concat]
  cases hl : ordinary last with
  | true =>
    obtain ⟨-, hd⟩ := ordinary_iff.mp hl
    simp only [Bool.not_true, Bool.false_eq_true, if_false]
    rw [hwalk, hd]
    simp
  | false =>
    simp only [Bool.not_false, if_true]
    rw [List.foldl_concat, hwalk]
    cases hd : doubleDot last with
    | true =>
      rw [enter_doubleDot hd]
      cases mid with
      | nil => simp
      | cons seg mid => simp
    | false =>
      rw [enter_singleDot hd (by simpa [ordinary, hd] using hl)]
      simp

end walks

/-! ### The text of a path -/

section texts

variable {a seg : Segment} {path segs : List Segment} {s t : List Char}

theorem mem_walk : ∀ {segs path : List Segment}, seg ∈ segs.foldl enter path → seg ∈ path ∨ seg ∈ segs
  | [], _, h => Or.inl h
  | seg' :: segs, path, h => by
    have hwalk : seg ∈ enter path seg' ∨ seg ∈ segs := mem_walk h
    rcases hwalk with h | h
    · unfold enter at h
      split_ifs at h
      · exact Or.inl (List.dropLast_subset _ h)
      · exact Or.inl h
      · rcases List.mem_append.mp h with h | h
        · exact Or.inl h
        · exact Or.inr (List.mem_singleton.mp h ▸ List.mem_cons_self)
    · exact Or.inr (List.mem_cons_of_mem _ h)

theorem mem_resolve (h : seg ∈ resolve segs) : seg ∈ segs ∨ seg = [] := by
  unfold resolve at h
  rcases List.mem_append.mp h with h | h
  · rcases mem_walk h with h | h
    · cases h
    · exact Or.inl h
  · split_ifs at h
    · exact Or.inr (List.mem_singleton.mp h)
    · cases h

theorem slash_notMem_resolve (h : seg ∈ resolve (segments s)) : '/' ∉ seg := by
  rcases mem_resolve h with h | rfl
  · intro hc
    obtain ⟨-, hp⟩ := mem_of_mem_splitOnP h hc
    cases hp
  · simp

theorem takeWhile_slash {b u : List Char} (hb : '/' ∉ b) :
    (b ++ '/' :: u).takeWhile (· != '/') = b := by
  rw [List.takeWhile_append_of_pos]
  · simp
  · intro c hc
    rw [bne_iff_ne]
    rintro rfl
    exact hb hc

/-- The text of a path starts with `/a/` if its first segment is `a` and not its last. -/
theorem prefix_pathname_iff (ha : '/' ∉ a) (hpath : ∀ seg ∈ path, '/' ∉ seg) :
    '/' :: (a ++ ['/']) <+: pathname path ↔ ∃ x rest, path = a :: x :: rest := by
  unfold pathname
  match path with
  | [] => simp
  | [seg] =>
    have hseg : '/' ∉ seg := hpath seg List.mem_cons_self
    simp only [List.flatMap_cons, List.flatMap_nil, List.append_nil, List.cons_prefix_cons, true_and]
    constructor
    · intro h
      exact absurd (h.subset (by simp)) hseg
    · rintro ⟨x, rest, h⟩
      cases h
  | seg :: x :: rest =>
    have hseg : '/' ∉ seg := hpath seg List.mem_cons_self
    simp only [List.flatMap_cons, List.cons_append, List.cons_prefix_cons, true_and]
    constructor
    · rintro ⟨u, hu⟩
      have htake := congrArg (List.takeWhile (· != '/')) hu
      rw [List.append_assoc, List.singleton_append, takeWhile_slash ha, takeWhile_slash hseg] at htake
      exact ⟨x, rest, by rw [htake]⟩
    · rintro ⟨x', rest', h⟩
      cases h
      exact ⟨x ++ rest.flatMap fun seg => '/' :: seg, by simp⟩

/-- **A parsed path lies below `a`** if the walk by its directory part does. -/
theorem prefix_parsed_iff (ha : ordinary a = true) (hslash : '/' ∉ a) :
    '/' :: (a ++ ['/']) <+: pathname (resolve (segments s)) ↔ Inside a (dirs (segments s)) := by
  rw [prefix_pathname_iff hslash fun _ h => slash_notMem_resolve h, resolve_below_iff ha]

end texts

end HomeLlmGateway.Lib.Url
