import HomeLlmGateway.Lib.Assoc
import HomeLlmGateway.Lib.Runs

/-! # The page of the dashboard

`IndexHtml` (`gateway/src/ui.rs`): the file `index.html` is read again only if its time stamp is not the one of the
copy in memory. A load is a sequence of steps, one for each of its two awaits and its two lock sections, and the
file is replaced between any two steps of any loads. What a load returns was at the path while the load ran, in
all runs over a history of the file, exactly if the stamps of this history tell the truth (`loads_current_iff`):
between two files with one stamp there was no other text than the later one's. -/

namespace HomeLlmGateway.Http.IndexHtml

open HomeLlmGateway.Lib.Assoc HomeLlmGateway.Lib.Runs

/-! ### Loads -/

/-- A file: its time stamp, if the file system knows it, and its text, if it can be read. -/
structure File where
  mtime : Option ℕ
  html : Option String
  deriving DecidableEq

/-- The stamp at the path, where there may be no file. -/
def mtimeAt (f : Option File) : Option ℕ := f.bind File.mtime

/-- The text at the path. -/
def htmlAt (f : Option File) : Option String := f.bind File.html

/-- `Cached`. -/
structure Cached where
  mtime : Option ℕ
  html : String
  deriving DecidableEq

/-- The next step of `load`. -/
inductive Pc where
  | metadata
  | check (mtime : Option ℕ)
  | read (mtime : Option ℕ)
  | store (mtime : Option ℕ) (html : String)
  | returned (html : Option String)
  deriving DecidableEq

/-- A load, with the numbers of the files that were at the path when it began and at its last step. -/
structure Load where
  pc : Pc
  first : ℕ
  last : ℕ
  deriving DecidableEq

structure State where
  /-- what was at the path before -/
  older : List (Option File)
  file : Option File
  cached : Option Cached
  loads : HashMap ℕ Load

def init (file : Option File) : State := ⟨[], file, none, ∅⟩

/-- All files, by their numbers. -/
def State.files (s : State) : List (Option File) := s.older ++ [s.file]

/-- One step of `load`. -/
def loadStep (file : Option File) (cached : Option Cached) : Pc → Option (Option Cached × Pc)
  | .metadata => some (cached, .check (mtimeAt file))
  | .check mtime =>
    match cached with
    | some c =>
      if mtime.isSome ∧ c.mtime = mtime then some (cached, .returned (some c.html)) else some (cached, .read mtime)
    | none => some (cached, .read mtime)
  | .read mtime =>
    match htmlAt file with
    | some html => some (cached, .store mtime html)
    | none => some (cached, .returned none)
  | .store mtime html => some (some ⟨mtime, html⟩, .returned (some html))
  | .returned _ => none

/-- At an await a load may be dropped. -/
def Pc.awaits : Pc → Bool
  | .metadata | .read _ => true
  | _ => false

inductive Label where
  | replace (file : Option File)
  | arrive (i : ℕ)
  | go (i : ℕ)
  | drop (i : ℕ)
  deriving DecidableEq

def step (s : State) : Label → Option State
  | .replace file => some { s with older := s.older ++ [s.file], file := file }
  | .arrive i =>
    if (s.loads.lookup i).isSome then none
    else some { s with loads := s.loads.insert i ⟨.metadata, s.older.length, s.older.length⟩ }
  | .go i =>
    (s.loads.lookup i).bind fun l => (loadStep s.file s.cached l.pc).map fun p =>
      { s with cached := p.1, loads := s.loads.insert i ⟨p.2, l.first, s.older.length⟩ }
  | .drop i =>
    (s.loads.lookup i).bind fun l => if l.pc.awaits then some { s with loads := s.loads.erase i } else none

/-! ### What a load may return -/

/-- The text `r` was at the path between the files `first` and `last`. -/
def Held (files : List (Option File)) (first last : ℕ) (r : Option String) : Prop :=
  ∃ k f, first ≤ k ∧ k ≤ last ∧ files[k]? = some f ∧ htmlAt f = r

/-- Every load that has returned has returned what was there while it ran. -/
def Current (s : State) : Prop :=
  ∀ i l r, s.loads.lookup i = some l → l.pc = .returned r → Held s.files l.first l.last r

/-- From a file with a stamp to a later one with the same stamp, no other text was there than that of the
later one. -/
def Truthful (files : List (Option File)) : Prop :=
  ∀ (i j k : ℕ) fi fj fk m h, i ≤ j → j ≤ k → files[i]? = some fi → files[j]? = some fj → files[k]? = some fk →
    mtimeAt fi = some m → mtimeAt fk = some m → htmlAt fj = some h → htmlAt fk = some h

/-- As when each file is written later than the one before. -/
theorem truthful_of_increasing {files : List (Option File)}
    (h : ∀ (i j : ℕ) fi fj m n, i < j → files[i]? = some fi → files[j]? = some fj → mtimeAt fi = some m →
      mtimeAt fj = some n → m < n) : Truthful files := by
  intro i j k fi fj fk m html hij hjk hi hj hk hmi hmk hhtml
  rcases Nat.lt_or_ge i k with hlt | hge
  · exact absurd (h i k fi fk m m hlt hi hk hmi hmk) (lt_irrefl m)
  · obtain rfl : j = k := by omega
    rw [hj] at hk
    cases hk
    exact hhtml

theorem getElem?_later {files files' : List (Option File)} (h : files <+: files') {k : ℕ} {f : Option File}
    (hk : files[k]? = some f) : files'[k]? = some f := by
  obtain ⟨hlt, rfl⟩ := List.getElem?_eq_some_iff.mp hk
  exact List.prefix_iff_getElem?.mp h k hlt

theorem Truthful.later {files files' : List (Option File)} (h : Truthful files') (hp : files <+: files') :
    Truthful files := fun i j k fi fj fk m html hij hjk hi hj hk =>
  h i j k fi fj fk m html hij hjk (getElem?_later hp hi) (getElem?_later hp hj) (getElem?_later hp hk)

theorem Held.later {files files' : List (Option File)} {first last : ℕ} {r : Option String}
    (h : Held files first last r) (hp : files <+: files') : Held files' first last r := by
  obtain ⟨k, f, hfirst, hlast, hk, hr⟩ := h
  exact ⟨k, f, hfirst, hlast, getElem?_later hp hk, hr⟩

/-! ### What holds in a run -/

/-- A text that was at the path, and a stamp that was there then or before. -/
def Paired (files : List (Option File)) (first last : ℕ) (mtime : Option ℕ) (html : String) : Prop :=
  ∃ (a b : ℕ) (f g : Option File), first ≤ a ∧ a ≤ b ∧ b ≤ last ∧ files[a]? = some f ∧ mtimeAt f = mtime ∧
    files[b]? = some g ∧ htmlAt g = some html

/-- What a load that runs between the files `first` and `last` carries. -/
def Carries (files : List (Option File)) (first last : ℕ) : Pc → Prop
  | .metadata => True
  | .check mtime | .read mtime => ∃ k f, first ≤ k ∧ k ≤ last ∧ files[k]? = some f ∧ mtimeAt f = mtime
  | .store mtime html => Paired files first last mtime html
  | .returned html => Truthful files → Held files first last html

structure Inv (s : State) : Prop where
  cached : ∀ c, s.cached = some c → Paired s.files 0 s.older.length c.mtime c.html
  bounds : ∀ i l, s.loads.lookup i = some l → l.first ≤ l.last ∧ l.last ≤ s.older.length
  carries : ∀ i l, s.loads.lookup i = some l → Carries s.files l.first l.last l.pc

theorem Paired.later {files files' : List (Option File)} {first last first' last' : ℕ} {mtime : Option ℕ}
    {html : String} (h : Paired files first last mtime html) (hp : files <+: files') (hfirst : first' ≤ first)
    (hlast : last ≤ last') : Paired files' first' last' mtime html := by
  obtain ⟨a, b, f, g, ha, hab, hb, hf, hm, hg, hh⟩ := h
  exact ⟨a, b, f, g, hfirst.trans ha, hab, hb.trans hlast, getElem?_later hp hf, hm,
    getElem?_later hp hg, hh⟩

theorem Carries.later {files files' : List (Option File)} {first last : ℕ} {pc : Pc}
    (h : Carries files first last pc) (hp : files <+: files') : Carries files' first last pc := by
  cases pc with
  | metadata => trivial
  | check mtime =>
    obtain ⟨k, f, hfirst, hlast, hk, hm⟩ := h
    exact ⟨k, f, hfirst, hlast, getElem?_later hp hk, hm⟩
  | read mtime =>
    obtain ⟨k, f, hfirst, hlast, hk, hm⟩ := h
    exact ⟨k, f, hfirst, hlast, getElem?_later hp hk, hm⟩
  | store mtime html => exact Paired.later h hp (le_refl _) (le_refl _)
  | returned html => exact fun ht => (h (ht.later hp)).later hp

theorem getElem?_now (s : State) : s.files[s.older.length]? = some s.file := by
  simp [State.files]

/-- A hit: the stamp seen by the load is the one in the cache. -/
theorem held_of_hit {files : List (Option File)} {first last now : ℕ} {m : ℕ} {html : String}
    (hlast : last ≤ now) (hseen : ∃ k f, first ≤ k ∧ k ≤ last ∧ files[k]? = some f ∧ mtimeAt f = some m)
    (hcached : Paired files 0 now (some m) html) (ht : Truthful files) : Held files first now (some html) := by
  obtain ⟨k, fk, hfirst, hk, hfk, hmk⟩ := hseen
  obtain ⟨a, b, fa, fb, -, hab, hb, hfa, hma, hfb, hhb⟩ := hcached
  rcases Nat.lt_or_ge b first with hlt | hge
  · -- The text is from before the load, and so is its stamp.
    have hbk : b ≤ k := by omega
    exact ⟨k, fk, hfirst, hk.trans hlast, hfk, ht a b k fa fb fk m html hab hbk hfa hfb hfk hma hmk hhb⟩
  · exact ⟨b, fb, hge, hb, hfb, hhb⟩

theorem carries_loadStep {s : State} (hs : Inv s) {l : Load} (hfirst : l.first ≤ l.last)
    (hlast : l.last ≤ s.older.length) (hl : Carries s.files l.first l.last l.pc) {cached : Option Cached} {pc : Pc}
    (h : loadStep s.file s.cached l.pc = some (cached, pc)) :
    (∀ c, cached = some c → Paired s.files 0 s.older.length c.mtime c.html) ∧
      Carries s.files l.first s.older.length pc := by
  have hnow := getElem?_now s
  have hle : l.first ≤ s.older.length := hfirst.trans hlast
  cases hpc : l.pc with
  | metadata =>
    rw [hpc] at h
    cases h
    exact ⟨hs.cached, s.older.length, s.file, hle, le_refl _, hnow, rfl⟩
  | check mtime =>
    rw [hpc] at h hl
    have hmiss : Carries s.files l.first s.older.length (.read mtime) := by
      obtain ⟨k, f, hfirst, hk, hf, hm⟩ := hl
      exact ⟨k, f, hfirst, hk.trans hlast, hf, hm⟩
    unfold loadStep at h
    cases hc : s.cached with
    | none =>
      simp only [hc] at h
      cases h
      exact ⟨fun c hc => (by cases hc), hmiss⟩
    | some c =>
      simp only [hc] at h
      split_ifs at h with hhit
      · cases h
        refine ⟨fun c' hc' => hs.cached c' (hc.trans hc'), fun ht => ?_⟩
        obtain ⟨m, hm⟩ := Option.isSome_iff_exists.mp hhit.1
        subst hm
        have hpaired := hs.cached c hc
        rw [hhit.2] at hpaired
        exact held_of_hit hlast hl hpaired ht
      · cases h
        exact ⟨fun c' hc' => hs.cached c' (hc.trans hc'), hmiss⟩
  | read mtime =>
    rw [hpc] at h hl
    unfold loadStep at h
    cases hhtml : htmlAt s.file with
    | none =>
      simp only [hhtml] at h
      cases h
      exact ⟨hs.cached, fun _ => ⟨s.older.length, s.file, hle, le_refl _, hnow, hhtml⟩⟩
    | some html =>
      simp only [hhtml] at h
      cases h
      obtain ⟨k, f, hk1, hk2, hf, hm⟩ := hl
      exact ⟨hs.cached, k, s.older.length, f, s.file, hk1, hk2.trans hlast, le_refl _, hf, hm, hnow, hhtml⟩
  | store mtime html =>
    rw [hpc] at h hl
    cases h
    have hpaired : Paired s.files l.first l.last mtime html := hl
    refine ⟨fun c hc => ?_, fun _ => ?_⟩
    · cases hc
      exact hpaired.later (List.prefix_refl _) (Nat.zero_le _) hlast
    · obtain ⟨a, b, f, g, ha, hab, hb, -, -, hg, hh⟩ := hpaired
      exact ⟨b, g, ha.trans hab, hb.trans hlast, hg, hh⟩
  | returned html =>
    rw [hpc] at h
    cases h

theorem inv_init (file : Option File) : Inv (init file) := by
  have hnone : ∀ i l, (init file).loads.lookup i ≠ some l := fun i l h => by cases h
  exact ⟨fun c hc => (by cases hc), fun i l h => absurd h (hnone i l), fun i l h => absurd h (hnone i l)⟩

theorem Inv.insert {s : State} (hs : Inv s) {cached : Option Cached} (i : ℕ) {l : Load}
    (hcached : ∀ c, cached = some c → Paired s.files 0 s.older.length c.mtime c.html)
    (hbounds : l.first ≤ l.last ∧ l.last ≤ s.older.length) (hcarries : Carries s.files l.first l.last l.pc) :
    Inv { s with cached := cached, loads := s.loads.insert i l } := by
  have hold : ∀ j l', (s.loads.insert i l).lookup j = some l' → l' = l ∨ s.loads.lookup j = some l' := by
    intro j l' hl'
    rw [lookup_insert] at hl'
    split_ifs at hl'
    · exact Or.inl (Option.some.inj hl').symm
    · exact Or.inr hl'
  refine ⟨hcached, fun j l' hl' => ?_, fun j l' hl' => ?_⟩
  · rcases hold j l' hl' with rfl | hl'
    · exact hbounds
    · exact hs.bounds j l' hl'
  · rcases hold j l' hl' with rfl | hl'
    · exact hcarries
    · exact hs.carries j l' hl'

theorem inv_step {s s' : State} {lab : Label} (hs : Inv s) (h : step s lab = some s') : Inv s' := by
  cases lab with
  | replace file =>
    cases h
    have hp : s.files <+: s.files ++ [file] := List.prefix_append _ _
    have hlen : s.files.length = s.older.length + 1 := by simp [State.files]
    refine ⟨fun c hc => (hs.cached c hc).later hp (le_refl _) ?_, fun i l hl => ?_, fun i l hl => ?_⟩
    · show s.older.length ≤ s.files.length
      omega
    · obtain ⟨hfirst, hlast⟩ := hs.bounds i l hl
      exact ⟨hfirst, hlast.trans (by show s.older.length ≤ s.files.length; omega)⟩
    · exact (hs.carries i l hl).later hp
  | arrive i =>
    simp only [step] at h
    split_ifs at h
    cases h
    exact hs.insert i hs.cached ⟨le_refl _, le_refl _⟩ trivial
  | go i =>
    obtain ⟨l, hl, h⟩ := Option.bind_eq_some_iff.mp h
    obtain ⟨⟨cached, pc⟩, hstep, h⟩ := Option.map_eq_some_iff.mp h
    cases h
    obtain ⟨hfirst, hlast⟩ := hs.bounds i l hl
    obtain ⟨hcached, hcarries⟩ := carries_loadStep hs hfirst hlast (hs.carries i l hl) hstep
    exact hs.insert i hcached ⟨hfirst.trans hlast, le_refl _⟩ hcarries
  | drop i =>
    obtain ⟨l, -, h⟩ := Option.bind_eq_some_iff.mp h
    split_ifs at h
    cases h
    have hkeep : ∀ j l', (s.loads.erase i).lookup j = some l' → s.loads.lookup j = some l' := by
      intro j l' hl'
      rw [lookup_erase] at hl'
      split_ifs at hl'
      exact hl'
    exact ⟨hs.cached, fun j l' hl' => hs.bounds j l' (hkeep j l' hl'),
      fun j l' hl' => hs.carries j l' (hkeep j l' hl')⟩

theorem inv_reaches {file : Option File} {s : State} (h : Reaches step (init file) s) : Inv s :=
  run_invariant (fun _ _ _ hs h => inv_step hs h) (inv_init file) h

theorem current_of_truthful {file : Option File} {s : State} (h : Reaches step (init file) s)
    (ht : Truthful s.files) : Current s := by
  intro i l r hl hpc
  have hcarries := (inv_reaches h).carries i l hl
  rw [hpc] at hcarries
  exact hcarries ht

/-! ### A page that is out of date -/

section stale

variable {files : List (Option File)} {cached : Option Cached} {loads : HashMap ℕ Load}

/-- The state with the file number `n` of a history. -/
def stateAt (files : List (Option File)) (n : ℕ) (cached : Option Cached) (loads : HashMap ℕ Load) : State :=
  ⟨files.take n, (files[n]?).join, cached, loads⟩

theorem files_stateAt (cached : Option Cached) (loads : HashMap ℕ Load) {n : ℕ} (hn : n < files.length) :
    (stateAt files n cached loads).files = files.take (n + 1) := by
  rw [State.files, stateAt, List.getElem?_eq_getElem hn, List.take_succ_eq_append_getElem hn]
  rfl

theorem reaches_stateAt {s : State} {n m : ℕ} (h : Reaches step s (stateAt files n cached loads)) (hnm : n ≤ m)
    (hm : m < files.length) : Reaches step s (stateAt files m cached loads) := by
  induction m, hnm using Nat.le_induction with
  | base => exact h
  | succ m _ ih =>
    have hfiles := files_stateAt cached loads (show m < files.length by omega)
    have hreplace : step (stateAt files m cached loads) (.replace (files[m + 1]?).join) =
        some (stateAt files (m + 1) cached loads) := by
      show some (State.mk (stateAt files m cached loads).files _ _ _) = _
      rw [hfiles]
      rfl
    exact (ih (by omega)).tail hreplace

theorem go_stateAt {s : State} {n i : ℕ} {l : Load} (hn : n < files.length)
    (h : Reaches step s (stateAt files n cached loads)) (hl : loads.lookup i = some l) (cached' : Option Cached)
    (pc : Pc) (hstep : loadStep (files[n]?).join cached l.pc = some (cached', pc)) :
    Reaches step s (stateAt files n cached' (loads.insert i ⟨pc, l.first, n⟩)) := by
  have hlen : (files.take n).length = n := List.length_take_of_le hn.le
  have hgo : step (stateAt files n cached loads) (.go i) =
      some (stateAt files n cached' (loads.insert i ⟨pc, l.first, n⟩)) := by
    simp only [step, stateAt, hl, Option.bind_some, hstep, Option.map_some, hlen]
  exact h.tail hgo

theorem arrive_stateAt {s : State} {n : ℕ} (i : ℕ) (hn : n < files.length)
    (h : Reaches step s (stateAt files n cached loads)) (hl : loads.lookup i = none) :
    Reaches step s (stateAt files n cached (loads.insert i ⟨.metadata, n, n⟩)) := by
  have hlen : (files.take n).length = n := List.length_take_of_le hn.le
  have harrive : step (stateAt files n cached loads) (.arrive i) =
      some (stateAt files n cached (loads.insert i ⟨.metadata, n, n⟩)) := by
    simp [step, stateAt, hl, hlen]
  exact h.tail harrive

theorem loadStep_metadata {f : Option File} {mtime : Option ℕ} (h : mtimeAt f = mtime) (cached : Option Cached) :
    loadStep f cached .metadata = some (cached, .check mtime) := by
  rw [← h]
  rfl

theorem loadStep_read {f : Option File} {html : String} (h : htmlAt f = some html) (cached : Option Cached)
    (mtime : Option ℕ) : loadStep f cached (.read mtime) = some (cached, .store mtime html) := by
  simp only [loadStep, h]

theorem loadStep_hit (f : Option File) (m : ℕ) (html : String) :
    loadStep f (some ⟨some m, html⟩) (.check (some m)) = some (some ⟨some m, html⟩, .returned (some html)) := by
  simp [loadStep]

end stale

/-- If the stamps lie, a load can get a page that is out of date: another load pairs the stamp with a text that
comes after it, and a later file bears the same stamp. -/
theorem exists_stale {file : Option File} {files : List (Option File)}
    (h : ¬ Truthful (file :: files)) : ∃ s, Reaches step (init file) s ∧ s.files <+: file :: files ∧ ¬ Current s := by
  unfold Truthful at h
  push Not at h
  obtain ⟨i, j, k, fi, fj, fk, m, html, hij, hjk, hfi, hfj, hfk, hmi, hmk, hhj, hne⟩ := h
  have hk : k < (file :: files).length := (List.getElem?_eq_some_iff.mp hfk).1
  have hj : j < (file :: files).length := by omega
  have hi : i < (file :: files).length := by omega
  have hready : Reaches step (init file) (stateAt (file :: files) 0 none ∅) := Reaches.refl _
  have hfi' : (file :: files)[i]?.join = fi := by rw [hfi, Option.join_some]
  have hfj' : (file :: files)[j]?.join = fj := by rw [hfj, Option.join_some]
  have hfk' : (file :: files)[k]?.join = fk := by rw [hfk, Option.join_some]
  -- The first load sees the stamp of `i` and reads the text of `j`.
  have hstarted := arrive_stateAt 0 hi (reaches_stateAt hready (Nat.zero_le i) hi) rfl
  have hlooked := go_stateAt hi hstarted (AList.lookup_insert _) none (.check (some m))
    (loadStep_metadata (hfi' ▸ hmi) none)
  have hmissed := go_stateAt hi hlooked (AList.lookup_insert _) none (.read (some m)) rfl
  have hread := go_stateAt hj (reaches_stateAt hmissed hij hj) (AList.lookup_insert _) none
    (.store (some m) html) (loadStep_read (hfj' ▸ hhj) none (some m))
  have hstored := go_stateAt hj hread (AList.lookup_insert _) (some ⟨some m, html⟩) (.returned (some html)) rfl
  -- The second load runs while the file `k` is there.
  have hsecond := arrive_stateAt 1 hk (reaches_stateAt hstored hjk hk) (by
    simp only [lookup_insert, one_ne_zero, if_false]
    rfl)
  have hchecked := go_stateAt hk hsecond (AList.lookup_insert _) (some ⟨some m, html⟩) (.check (some m))
    (loadStep_metadata (hfk' ▸ hmk) _)
  have hhit := go_stateAt hk hchecked (AList.lookup_insert _) (some ⟨some m, html⟩) (.returned (some html))
    (loadStep_hit _ m html)
  refine ⟨_, hhit, ?_, fun hcurrent => ?_⟩
  · rw [files_stateAt _ _ hk]
    exact List.take_prefix _ _
  · obtain ⟨k', f, hfirst, hlast, hf, hr⟩ := hcurrent 1 _ _ (AList.lookup_insert _) rfl
    obtain rfl : k' = k := le_antisymm hlast hfirst
    rw [files_stateAt _ _ hk, List.getElem?_take_of_lt (Nat.lt_succ_self k'), hfk] at hf
    cases hf
    exact hne hr

theorem cached_of_loadStep_none {file : Option File} {cached cached' : Option Cached} {pc : Pc}
    (h : loadStep file cached pc = some (cached', .returned none)) : cached' = cached := by
  cases pc with
  | metadata => cases h
  | check mtime =>
    unfold loadStep at h
    cases cached with
    | none => cases h
    | some c =>
      simp only at h
      split_ifs at h <;> cases h
  | read mtime =>
    unfold loadStep at h
    cases hhtml : htmlAt file with
    | none =>
      simp only [hhtml] at h
      cases h
      rfl
    | some html =>
      simp only [hhtml] at h
      cases h
  | store mtime html => cases h
  | returned html => cases h

theorem loadStep_check_none (file : Option File) (cached : Option Cached) :
    loadStep file cached (.check none) = some (cached, .read none) := by
  cases cached with
  | none => rfl
  | some c => rfl

theorem go_cases {s s' : State} {i : ℕ} {l : Load} (hl : s.loads.lookup i = some l)
    (h : step s (.go i) = some s') : ∃ l', s'.loads.lookup i = some l' ∧
      (l'.pc = .returned none → s'.cached = s.cached) ∧ (l.pc = .check none → l'.pc = .read none) := by
  simp only [step, hl, Option.bind_some, Option.map_eq_some_iff] at h
  obtain ⟨⟨cached, pc⟩, hstep, rfl⟩ := h
  refine ⟨_, AList.lookup_insert _, fun hpc => ?_, fun hpc => ?_⟩
  · have hpc : pc = .returned none := hpc
    subst hpc
    exact cached_of_loadStep_none hstep
  · rw [hpc, loadStep_check_none] at hstep
    cases hstep
    rfl

/-- **A load returns what was there while it ran**, in every run over a history of the file and however the loads
interleave with each other and with the replacements, exactly if the stamps of the history are truthful. A text
that cannot be read is never kept, and a file without a stamp is always read again. -/
theorem loads_current_iff (file : Option File) (files : List (Option File)) :
    ((∀ s, Reaches step (init file) s → s.files <+: file :: files → Current s) ↔ Truthful (file :: files)) ∧
    (∀ s, Reaches step (init file) s → ∀ c, s.cached = some c → ∃ f ∈ s.files, htmlAt f = some c.html) ∧
    ∀ s s' i l, s.loads.lookup i = some l → step s (.go i) = some s' → ∃ l', s'.loads.lookup i = some l' ∧
      (l'.pc = .returned none → s'.cached = s.cached) ∧ (l.pc = .check none → l'.pc = .read none) := by
  refine ⟨⟨fun h => ?_, fun ht s hs hp => ?_⟩, fun s hs c hc => ?_, fun s s' i l => go_cases⟩
  · by_contra hnot
    obtain ⟨s, hs, hp, hstale⟩ := exists_stale hnot
    exact hstale (h s hs hp)
  · exact current_of_truthful hs (ht.later hp)
  · obtain ⟨a, b, f, g, -, -, -, -, -, hg, hhtml⟩ := (inv_reaches hs).cached c hc
    exact ⟨g, List.mem_of_getElem? hg, hhtml⟩

end HomeLlmGateway.Http.IndexHtml
