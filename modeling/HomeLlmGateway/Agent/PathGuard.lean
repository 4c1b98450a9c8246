import HomeLlmGateway.Agent.Stream
import HomeLlmGateway.Lib.Url

/-! # The path guard of the agent

The agent joins its upstream and the target of a request to a URL, after `safe_upstream_path` has looked at
the path of the target (`agent/src/stream.rs`, `proto/src/path.rs`), and leaves it to the URL parser to read
that. The guard judges the path as it stands. The parser deletes tabs and newlines, cuts at `#` and strips
the end, so that a segment may become `..` only then: `path_guard_after_parsing` says which targets that pass
the guard stay below `/v1/`. -/

namespace HomeLlmGateway.Agent.PathGuard

open HomeLlmGateway.Lib.Split HomeLlmGateway.Lib.Url HomeLlmGateway.Proto.Http
open HomeLlmGateway.Agent.Stream

/-- An upstream of the form `scheme://host:port`. -/
def IsUpstream (upstream : String) : Prop :=
  ∃ scheme host port : List Char, upstream.toList = scheme ++ "://".toList ++ (host ++ ':' :: port) ∧
    scheme ∈ ["http".toList, "https".toList] ∧
    (∀ c ∈ host, c0OrSpace c = false ∧ c ∉ ['/', '\\', '?', '#']) ∧ ∀ c ∈ port, c.isDigit = true

theorem IsUpstream.isOrigin {upstream : String} (h : IsUpstream upstream) : IsOrigin upstream.toList := by
  obtain ⟨scheme, host, port, heq, hscheme, hhost, hport⟩ := h
  have hletters : ∀ scheme' ∈ ["http".toList, "https".toList], ∀ c ∈ scheme',
      c0OrSpace c = false ∧ c ∉ [':', '?', '#'] := by
    simp only [← List.forall_iff_forall_mem]
    decide
  have hcolon : c0OrSpace ':' = false ∧ ':' ∉ ['/', '\\', '?', '#'] := by decide
  refine ⟨scheme, host ++ ':' :: port, heq, by simp, hletters scheme hscheme, fun c hc => ?_⟩
  rcases List.mem_append.mp hc with hc | hc
  · exact hhost c hc
  · rcases List.mem_cons.mp hc with rfl | hc
    · exact hcolon
    · have hd := hport c hc
      have hrange : 48 ≤ c.toNat ∧ c.toNat ≤ 57 := by
        simpa [Char.isDigit, UInt32.le_iff_toNat_le] using hd
      refine ⟨by simp [c0OrSpace]; omega, ?_⟩
      rintro hm
      simp only [List.mem_cons, List.not_mem_nil, or_false] at hm
      rcases hm with rfl | rfl | rfl | rfl
      · cases hd
      · cases hd
      · cases hd
      · cases hd

/-! ### What the guard lets through -/

theorem contains_iff (s text : List Char) : contains s text = true ↔ text <:+: s := by
  unfold contains
  rw [List.any_eq_true, List.infix_iff_prefix_suffix]
  simp only [List.mem_tails, List.isPrefixOf_iff_prefix]
  exact ⟨fun ⟨t, ht, hp⟩ => ⟨t, hp, ht⟩, fun ⟨t, hp, ht⟩ => ⟨t, ht, hp⟩⟩

/-- A path that the guard lets through. -/
structure Guarded (path : List Char) : Prop where
  below : "/v1/".toList <+: path
  noBackslash : '\\' ∉ path
  noDot : ¬ "%2e".toList <:+: path.map Char.toLower
  segments : ∀ seg ∈ (path.splitOn '/').drop 1, seg ≠ [] ∧ seg ≠ ['.'] ∧ seg ≠ ['.', '.']

/-- **`safe_upstream_path`** returns the path as it is, and only a guarded one. -/
theorem guarded_of_safeUpstreamPath {path p : String} (h : safeUpstreamPath path = some p) :
    p = path ∧ Guarded path.toList := by
  unfold safeUpstreamPath at h
  dsimp only at h
  split_ifs at h with hbelow hchars hsegs
  simp only [Bool.not_eq_true, Bool.or_eq_false_iff] at hchars
  obtain ⟨⟨⟨hback, h2e⟩, -⟩, -⟩ := hchars
  rw [Option.some.injEq] at h
  refine ⟨h.symm, by simpa [List.isPrefixOf_iff_prefix] using hbelow, fun hm => ?_, fun hi => ?_,
    fun seg hseg => ?_⟩
  · have hlower : '\\' ∈ path.toList.map Char.toLower := List.mem_map.mpr ⟨'\\', hm, rfl⟩
    rw [List.contains_eq_mem, decide_eq_false_iff_not] at hback
    exact hback hlower
  · rw [(contains_iff _ _).mpr hi] at h2e
    cases h2e
  · simp only [List.any_eq_true, not_exists, not_and, Bool.or_eq_true, List.isEmpty_iff, beq_iff_eq,
      not_or] at hsegs
    obtain ⟨⟨h1, h2⟩, h3⟩ := hsegs seg hseg
    exact ⟨h1, h2, h3⟩

theorem splitTarget_append (target : String) :
    (splitTarget target).1.toList ++ (splitTarget target).2.toList = target.toList := by
  unfold splitTarget
  simp only [String.toList_ofList]
  exact List.takeWhile_append_dropWhile

/-- **`upstream_url`** joins the upstream and the target, if the path of the target is guarded. -/
theorem upstreamUrl_spec {upstream target url : String} (h : upstreamUrl upstream target = some url) :
    Guarded (target.toList.takeWhile (· != '?')) ∧ url.toList = upstream.toList ++ target.toList := by
  obtain ⟨p, hp, rfl⟩ := Option.map_eq_some_iff.mp h
  obtain ⟨rfl, hg⟩ := guarded_of_safeUpstreamPath hp
  refine ⟨by simpa [splitTarget] using hg, ?_⟩
  rw [String.toList_append, String.toList_append, List.append_assoc, splitTarget_append]

/-! ### What the parser makes of it -/

section parsing

variable {target : List Char}

/-- The first segment. -/
def v1 : Segment := "v1".toList

/-- The parser reads `/v1/` first, too. -/
theorem cut_below (h : "/v1/".toList <+: target) : ∃ rest, cut target = "/v1/".toList ++ rest := by
  obtain ⟨t, rfl⟩ := h
  have hplain : ∀ c ∈ "/v1".toList, c0OrSpace c = false ∧ c ∉ ['?', '#'] :=
    List.forall_iff_forall_mem.mp (by decide)
  obtain ⟨rest, hrest⟩ := cut_slash t
  refine ⟨rest, ?_⟩
  calc cut ("/v1/".toList ++ t) = cut ("/v1".toList ++ '/' :: t) := rfl
    _ = "/v1".toList ++ cut ('/' :: t) := cut_append hplain (by decide) t
    _ = "/v1/".toList ++ rest := by rw [hrest]; rfl

theorem segments_below (rest : List Char) :
    segments ("/v1/".toList ++ rest) = v1 :: rest.splitOnP slash := by
  have hv1 : ∀ c ∈ v1, slash c = false := List.forall_iff_forall_mem.mp (by decide)
  exact List.splitOnP_append_cons_of_forall_mem hv1 '/' rfl rest

/-- In a guarded path the parser finds the slashes that the guard has found. -/
theorem Guarded.slash_eq {path : List Char} (hg : Guarded path) : ∀ c ∈ path, slash c = (c == '/') := by
  intro c hc
  have hne : c ≠ '\\' := by
    rintro rfl
    exact hg.noBackslash hc
  simp [slash, hne]

theorem Guarded.dots_iff {path : List Char} {seg : Segment} (hg : Guarded path) (h : seg <:+: path) :
    (singleDot seg = true ↔ seg = ['.']) ∧ (doubleDot seg = true ↔ seg = ['.', '.']) :=
  dots_of_plain fun hi => hg.noDot (hi.trans (h.map Char.toLower))

/-- A guarded path has no dot segment. -/
theorem Guarded.ordinary {rest : List Char} (hg : Guarded ("/v1/".toList ++ rest)) :
    ∀ seg ∈ rest.splitOnP slash, Lib.Url.ordinary seg = true := by
  intro seg hseg
  have hslash : ∀ c ∈ rest, slash c = (c == '/') := fun c hc =>
    hg.slash_eq c (List.mem_append_right _ hc)
  have hsplit : ("/v1/".toList ++ rest).splitOn '/' = [] :: v1 :: rest.splitOn '/' := by
    have hnil : '/' ∉ ([] : List Char) := by simp
    have hv1 : '/' ∉ v1 := by decide
    exact (List.splitOn_append_cons_self_of_not_mem hnil _).trans
      (congrArg _ (List.splitOn_append_cons_self_of_not_mem hv1 _))
  have hseen : seg ∈ (("/v1/".toList ++ rest).splitOn '/').drop 1 := by
    rw [hsplit, List.drop_one, List.tail_cons, List.splitOn_eq_splitOnP, ← splitOnP_congr hslash]
    exact List.mem_cons_of_mem _ hseg
  obtain ⟨-, h1, h2⟩ := hg.segments seg hseen
  have hd := hg.dots_iff ((isInfix_of_mem_splitOnP hseg).trans (List.suffix_append _ _).isInfix)
  rw [ordinary_iff, ← Bool.not_eq_true, ← Bool.not_eq_true, hd.1, hd.2]
  exact ⟨h1, h2⟩

/-- What the parser reads of a target whose path has no tab or newline is a part of that path. -/
theorem cut_prefix_path (h : "/v1/".toList <+: target)
    (hplain : ∀ c ∈ target.takeWhile (· != '?'), tabOrNewline c = false) :
    cut target <+: target.takeWhile (· != '?') := by
  obtain ⟨t, ht⟩ := h
  have htarget : target = '/' :: ("v1/".toList ++ t) := ht.symm
  rw [htarget] at hplain ⊢
  exact cut_prefix (by decide) hplain

theorem splitOnP_dots_iff {rest : List Char} {mid : List Segment} {last : Segment}
    (hslash : ∀ c ∈ rest, slash c = (c == '/')) (h : rest.splitOnP slash = mid ++ [last]) :
    (mid = [] ∧ last = ['.', '.']) ↔ rest = ['.', '.'] := by
  refine ⟨?_, ?_⟩
  · rintro ⟨rfl, rfl⟩
    have hjoin : ['/'].intercalate (rest.splitOn '/') = rest := List.intercalate_splitOn '/'
    rw [List.splitOn_eq_splitOnP, ← splitOnP_congr hslash, h] at hjoin
    rw [← hjoin]
    rfl
  · rintro rfl
    have hdot : ['.', '.'].splitOnP slash = [['.', '.']] :=
      List.splitOnP_eq_singleton (List.forall_iff_forall_mem.mp (by decide))
    rw [hdot] at h
    cases mid with
    | nil => exact ⟨rfl, (List.singleton_inj.mp h).symm⟩
    | cons seg mid =>
      have hlen := congrArg List.length h
      simp at hlen

/-- **Without tabs and newlines in its path**, a guarded target can leave `/v1/` only by a last segment that
the parser shortens to `..`. -/
theorem inside_of_guarded (hg : Guarded (target.takeWhile (· != '?')))
    (hplain : ∀ c ∈ target.takeWhile (· != '?'), tabOrNewline c = false) :
    Inside v1 (dirs (segments (cut target))) ↔ cut target ≠ "/v1/..".toList := by
  have hbelow : "/v1/".toList <+: target := hg.below.trans (List.takeWhile_prefix _)
  obtain ⟨rest, hrest⟩ := cut_below hbelow
  obtain ⟨more, hmore⟩ := hrest ▸ cut_prefix_path hbelow hplain
  rw [List.append_assoc] at hmore
  rw [← hmore] at hg
  have hslash : ∀ c ∈ rest, slash c = (c == '/') := fun c hc =>
    hg.slash_eq c (List.mem_append_right _ (List.mem_append_left _ hc))
  obtain ⟨mid, last, hml⟩ : ∃ mid last, rest.splitOnP slash = mid ++ [last] := by
    rcases List.eq_nil_or_concat (rest.splitOnP slash) with h | ⟨mid, last, h⟩
    · exact absurd h (List.splitOnP_ne_nil _ _)
    · exact ⟨mid, last, h.trans (List.concat_eq_append ..)⟩
  -- all segments but the last are segments that the guard has seen
  have hmid : ∀ seg ∈ v1 :: mid, ordinary seg = true := by
    intro seg hseg
    rcases List.mem_cons.mp hseg with rfl | hseg
    · rfl
    · have hpre := dropLast_splitOnP_prefix (p := slash) (List.prefix_append rest more)
      rw [hml, List.dropLast_concat] at hpre
      exact hg.ordinary seg (hpre.subset hseg)
  -- and the last is a part of one
  have hlast : doubleDot last = true ↔ last = ['.', '.'] := by
    have hmem : last ∈ rest.splitOnP slash := hml ▸ List.mem_append_right _ (List.mem_singleton_self _)
    exact (hg.dots_iff ((isInfix_of_mem_splitOnP hmem).trans ⟨"/v1/".toList, more, by simp⟩)).2
  rw [hrest, segments_below, hml, ← List.cons_append, inside_dirs_iff hmid, hlast,
    splitOnP_dots_iff hslash hml]
  exact not_congr ⟨fun h => congrArg _ h, fun h => List.append_cancel_left h⟩

end parsing

/-! ### The law -/

/-- **The path guard after parsing.** For every target that `upstream_url` accepts, the path that the parser
finds lies below `/v1/` exactly if the walk by its segments, as the parser reads them, enters `v1` at the
root and does not climb above it from there on. If the path of the target has no tab or newline, that is:
exactly if what the parser reads of it is not `/v1/..`. -/
theorem path_guard_after_parsing {upstream target url : String} (hup : IsUpstream upstream)
    (h : upstreamUrl upstream target = some url) :
    ("/v1/".toList <+: parsePath url.toList ↔ Inside v1 (dirs (segments (cut target.toList)))) ∧
    ((∀ c ∈ target.toList.takeWhile (· != '?'), tabOrNewline c = false) →
      ("/v1/".toList <+: parsePath url.toList ↔ cut target.toList ≠ "/v1/..".toList)) := by
  obtain ⟨hg, hurl⟩ := upstreamUrl_spec h
  have hin : "/v1/".toList <+: parsePath url.toList ↔ Inside v1 (dirs (segments (cut target.toList))) := by
    obtain ⟨t, ht⟩ := hg.below.trans (List.takeWhile_prefix _)
    have htarget : target.toList = '/' :: ("v1/".toList ++ t) := ht.symm
    rw [hurl, htarget, parsePath_append hup.isOrigin]
    exact prefix_parsed_iff (a := v1) rfl (by decide)
  exact ⟨hin, fun hplain => hin.trans (inside_of_guarded hg hplain)⟩

theorem local_isUpstream : IsUpstream "http://127.0.0.1:11434" :=
  ⟨"http".toList, "127.0.0.1".toList, "11434".toList, by decide, by decide,
    List.forall_iff_forall_mem.mp (by decide), List.forall_iff_forall_mem.mp (by decide)⟩

/-- A target that stays below `/v1/`, although the parser cuts it. -/
theorem path_guard_after_parsing_models : upstreamUrl "http://127.0.0.1:11434" "/v1/models#all" =
      some "http://127.0.0.1:11434/v1/models#all" ∧
    "/v1/".toList <+: parsePath "http://127.0.0.1:11434/v1/models#all".toList := by
  have h : upstreamUrl "http://127.0.0.1:11434" "/v1/models#all" =
      some "http://127.0.0.1:11434/v1/models#all" := by decide +kernel
  refine ⟨h, ((path_guard_after_parsing local_isUpstream h).2
    (List.forall_iff_forall_mem.mp (by decide)) |>.mpr ?_)⟩
  decide

/-- A tab, and a `#` behind two dots: the guard lets both through, and the parser finds another path. -/
theorem guard_is_passed_by :
    (∃ url, upstreamUrl "http://127.0.0.1:11434" "/v1/.\t./api/delete" = some url ∧
      parsePath url.toList = "/api/delete".toList) ∧
    ∃ url, upstreamUrl "http://127.0.0.1:11434" "/v1/..#" = some url ∧
      parsePath url.toList = "/".toList := by
  refine ⟨⟨"http://127.0.0.1:11434/v1/.\t./api/delete", ?_, ?_⟩,
    "http://127.0.0.1:11434/v1/..#", ?_, ?_⟩
  · decide +kernel
  · decide +kernel
  · decide +kernel
  · decide +kernel

end HomeLlmGateway.Agent.PathGuard
