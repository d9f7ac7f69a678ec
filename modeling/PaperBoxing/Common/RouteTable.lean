import PaperBoxing.Lib.Templates
import PaperBoxing.Common.Scopes
import PaperBoxing.Common.SitePaths

/-! # The route table

`common/routes.py`: the routes with their methods and path templates, the paths the client builds
from them, and the route that a method and a decoded path select, which is the first of the table
that fits.

* `build_path_reads`: a built path is decoded to the template filled with the values;
* `select_filled`: a filled template selects its own route, with the values that fill it. -/

namespace PaperBoxing.Common.RouteTable

open PaperBoxing.Lib.Text PaperBoxing.Lib.Percent PaperBoxing.Lib.Templates
open PaperBoxing.Common.Scopes PaperBoxing.Common.Schema PaperBoxing.Common.Naming

/-- The methods of the table. -/
inductive Method : Type where
  | GET
  | POST
  | PUT
  | DELETE
  deriving DecidableEq

def Method.value : Method → String
  | .GET => "GET"
  | .POST => "POST"
  | .PUT => "PUT"
  | .DELETE => "DELETE"

structure RouteSpec : Type where
  name : RouteName
  method : Method
  path : Str
  deriving DecidableEq

def API_PREFIX : Str := lit "/api/v1"

/-- The header a request carries when it came through the MCP server. -/
def VIA_HEADER : Str := lit "X-Paper-Boxing-Via"

def VIA_MCP : Str := lit "mcp"

/-- The table entry of a route; its access rule is `route_access`. -/
def route : RouteName → RouteSpec
  | .login => ⟨.login, .POST, API_PREFIX ++ lit "/auth/login"⟩
  | .logout => ⟨.logout, .POST, API_PREFIX ++ lit "/auth/logout"⟩
  | .list_sites => ⟨.list_sites, .GET, API_PREFIX ++ lit "/sites"⟩
  | .create_site => ⟨.create_site, .POST, API_PREFIX ++ lit "/sites"⟩
  | .get_site => ⟨.get_site, .GET, API_PREFIX ++ lit "/sites/\x7bslug\x7d"⟩
  | .delete_site => ⟨.delete_site, .DELETE, API_PREFIX ++ lit "/sites/\x7bslug\x7d"⟩
  | .list_files => ⟨.list_files, .GET, API_PREFIX ++ lit "/sites/\x7bslug\x7d/files"⟩
  | .upload_file =>
    ⟨.upload_file, .PUT, API_PREFIX ++ lit "/sites/\x7bslug\x7d/files/\x7bpath:path\x7d"⟩
  | .download_file =>
    ⟨.download_file, .GET, API_PREFIX ++ lit "/sites/\x7bslug\x7d/files/\x7bpath:path\x7d"⟩
  | .delete_file =>
    ⟨.delete_file, .DELETE, API_PREFIX ++ lit "/sites/\x7bslug\x7d/files/\x7bpath:path\x7d"⟩
  | .delete_folder =>
    ⟨.delete_folder, .DELETE, API_PREFIX ++ lit "/sites/\x7bslug\x7d/folders/\x7bpath:path\x7d"⟩
  | .list_tokens => ⟨.list_tokens, .GET, API_PREFIX ++ lit "/tokens"⟩
  | .create_token => ⟨.create_token, .POST, API_PREFIX ++ lit "/tokens"⟩
  | .token_self => ⟨.token_self, .GET, API_PREFIX ++ lit "/tokens/self"⟩
  | .revoke_token => ⟨.revoke_token, .DELETE, API_PREFIX ++ lit "/tokens/\x7btoken_id\x7d"⟩
  | .list_users => ⟨.list_users, .GET, API_PREFIX ++ lit "/users"⟩
  | .create_user => ⟨.create_user, .POST, API_PREFIX ++ lit "/users"⟩
  | .change_password => ⟨.change_password, .POST, API_PREFIX ++ lit "/users/self/password"⟩
  | .delete_user => ⟨.delete_user, .DELETE, API_PREFIX ++ lit "/users/\x7buser_id\x7d"⟩

/-- **The table**, in its order. -/
def ROUTES : List RouteSpec :=
  [.login, .logout, .list_sites, .create_site, .get_site, .delete_site, .list_files, .upload_file,
    .download_file, .delete_file, .delete_folder, .list_tokens, .create_token, .token_self,
    .revoke_token, .list_users, .create_user, .change_password, .delete_user].map route

/-! ### Building a path -/

/-- What `build_path` raises: a parameter is missing, or its value has no encoding. -/
inductive UrlError : Type where
  | key_error
  | unicode_error
  deriving DecidableEq

/-- `quote(value, safe="")` keeps what `quote(value, safe="/")` does, the slash apart. -/
def isUnreserved (c : CodePoint) : Bool := isSafe c && c != slash

/-- The quoting of a parameter: a `path` keeps its slashes. -/
def safeFor (key : Str) : CodePoint → Bool := if key = lit "path" then isSafe else isUnreserved

/-- `substitute`, on a part of the template. -/
def substitute (params : List (Str × Str)) : Part → Except UrlError Str
  | .literal text => .ok text
  | .param key _ =>
    match params.lookup key with
    | none => .error .key_error
    | some value =>
      match quoteBut (safeFor key) value with
      | none => .error .unicode_error
      | some quoted => .ok quoted

/-- The parts of a path, each substituted. -/
def substituteAll (params : List (Str × Str)) : List Part → Except UrlError (List Str)
  | [] => .ok []
  | p :: ps => do
    let text ← substitute params p
    let texts ← substituteAll params ps
    .ok (text :: texts)

/-- **`build_path`**. -/
def build_path (name : RouteName) (params : List (Str × Str)) : Except UrlError Str :=
  (substituteAll params (parts (route name).path)).map join

example : build_path .upload_file [(lit "slug", lit "s"), (lit "path", lit "docs/a b/ü.html")] =
    .ok (lit "/api/v1/sites/s/files/docs/a%20b/%C3%BC.html") := by decide +kernel

/-! ### Selecting a route -/

/-- **The route of a request**: the first of the table that has the method and fits the path. -/
def select (method : Method) (path : Str) : Option (RouteName × List (Str × Str)) :=
  ROUTES.findSome? fun r =>
    if r.method = method then (matchParts (parts r.path) (split path)).map (r.name, ·) else none

example : select .DELETE (lit "/api/v1/sites/s/files/folders/self") =
    some (.delete_file, [(lit "slug", lit "s"), (lit "path", lit "folders/self")]) := by decide +kernel

/-! ### The table fits together -/

/-- A literal that quoting keeps, or a parameter that takes the rest exactly when it is `path`. -/
def regular : Part → Bool
  | .literal text => text.all isSafe
  | .param key rest => rest == decide (key = lit "path")

/-- Every template ends with its rest parameter, if it has one; no parameter occurs twice. -/
theorem table_wellFormed (name : RouteName) : wellFormed (parts (route name).path) = true ∧
    (parts (route name).path).all regular = true ∧ (keys (parts (route name).path)).Nodup := by
  cases name <;> decide +kernel

/-- **No two entries with one method have a path in common.** -/
theorem table_clash : ROUTES.Pairwise fun r' r =>
    r'.method ≠ r.method ∨ clash (parts r'.path) (parts r.path) = true := by
  decide +kernel

theorem route_name (name : RouteName) : (route name).name = name := by cases name <;> rfl

theorem route_mem (name : RouteName) : route name ∈ ROUTES := by
  cases name <;> exact List.mem_map_of_mem (by decide)

theorem parts_ne_nil (template : Str) : parts template ≠ [] := by
  rw [parts, ne_eq, List.map_eq_nil_iff]
  exact split_ne_nil template

/-- **A filled template selects its own route**, with the values that fill it. -/
theorem select_filled {name : RouteName} {vs : List (Str × Str)} {ws : List Str}
    (h : Fills (parts (route name).path) vs ws) :
    select (route name).method (join ws) = some (name, vs) := by
  have hlit := literals_of_wellFormed (table_wellFormed name).1
  have hne := h.ne_nil (parts_ne_nil _)
  obtain ⟨before, after, hsplit⟩ := List.append_of_mem (route_mem name)
  have hpair := table_clash
  rw [hsplit, List.pairwise_append] at hpair
  rw [select, hsplit, List.findSome?_append, List.findSome?_eq_none_iff.2, Option.none_or,
    List.findSome?_cons, if_pos rfl, (matchParts_iff (parts_ne_nil _) hlit).2 ⟨ws, h, rfl⟩,
    Option.map_some, route_name]
  intro r hr
  split_ifs with hm
  · -- an earlier entry with this method clashes with the route's template
    have hc := (hpair.2.2 r hr (route name) List.mem_cons_self).resolve_left fun hne => hne hm
    rw [split_join_flatMap hne, matchParts_clash hc h hlit, Option.map_none]
  · rfl

/-! ### Built paths are read back -/

theorem safeFor_keeps (key : Str) : Keeps (safeFor key) := by
  rw [safeFor]
  split_ifs with h
  · exact keeps_isSafe
  · exact fun c hc => keeps_isSafe c (Bool.and_eq_true_iff.1 hc).1

theorem substituteAll_reads {params vs : List (Str × Str)} {ps : List Part} {ws : List Str}
    (h : Fills ps vs ws) (hlookup : ∀ kv ∈ vs, params.lookup kv.1 = some kv.2)
    (hutf : ∀ kv ∈ vs, ∃ b, utf8 kv.2 = some b) (hlit : ∀ t, .literal t ∈ ps → t.all isSafe = true) :
    ∃ texts, substituteAll params ps = .ok texts ∧ List.Forall₂ Reads texts ws := by
  have hparam : ∀ key rest v, (key, v) ∈ vs → ∃ quoted,
      substitute params (.param key rest) = .ok quoted ∧ Reads quoted v := by
    intro key rest v hv
    obtain ⟨b, hb⟩ := hutf _ hv
    obtain ⟨quoted, hq⟩ := exists_quoteBut (safeFor key) hb
    refine ⟨quoted, ?_, reads_quoteBut (safeFor_keeps key) hq⟩
    rw [substitute, hlookup _ hv]
    dsimp only
    rw [hq]
  induction h with
  | nil => exact ⟨[], rfl, .nil⟩
  | @literal ps vs ws t h ih =>
    obtain ⟨texts, hts, hreads⟩ := ih hlookup hutf
      (fun u hu => hlit u (List.mem_cons_of_mem _ hu)) hparam
    have ht := List.all_eq_true.1 (hlit t List.mem_cons_self)
    refine ⟨t :: texts, ?_, .cons (reads_quoteBut keeps_isSafe (quoteBut_kept keeps_isSafe ht)) hreads⟩
    rw [substituteAll, hts]
    rfl
  | @param ps vs ws key v hv hs h ih =>
    obtain ⟨texts, hts, hreads⟩ := ih (fun kv hkv => hlookup kv (List.mem_cons_of_mem _ hkv))
      (fun kv hkv => hutf kv (List.mem_cons_of_mem _ hkv))
      (fun u hu => hlit u (List.mem_cons_of_mem _ hu))
      fun k rest w hw => hparam k rest w (List.mem_cons_of_mem _ hw)
    obtain ⟨quoted, hq, hread⟩ := hparam key false v List.mem_cons_self
    refine ⟨quoted :: texts, ?_, .cons hread hreads⟩
    rw [substituteAll, hts, hq]
    rfl
  | @rest key v hv =>
    obtain ⟨quoted, hq, hread⟩ := hparam key true v List.mem_cons_self
    refine ⟨[quoted], ?_, .cons hread .nil⟩
    rw [substituteAll, hq]
    rfl

/-- The values of a route's parameters, in their order. -/
def Parameters (name : RouteName) (params : List (Str × Str)) : Prop :=
  params.map Prod.fst = keys (parts (route name).path)

theorem lookup_of_mem {params : List (Str × Str)} (h : (params.map Prod.fst).Nodup) :
    ∀ kv ∈ params, params.lookup kv.1 = some kv.2 := by
  induction params with
  | nil => nofun
  | cons p params ih =>
    rw [List.map_cons, List.nodup_cons] at h
    rintro ⟨k, v⟩ hkv
    rcases List.mem_cons.1 hkv with rfl | hkv
    · exact List.lookup_cons_self
    · have hne : (k == p.1) = false := by
        rw [beq_eq_false_iff_ne]
        rintro rfl
        exact h.1 (List.mem_map.2 ⟨_, hkv, rfl⟩)
      rw [show p = (p.1, p.2) from rfl, List.lookup_cons, hne]
      exact ih h.2 _ hkv

/-- **A built path is decoded to the filled template.** -/
theorem build_path_reads {name : RouteName} {params : List (Str × Str)} {ws : List Str}
    (hkeys : Parameters name params) (h : Fills (parts (route name).path) params ws)
    (hutf : ∀ kv ∈ params, ∃ b, utf8 kv.2 = some b) :
    ∃ url, build_path name params = .ok url ∧ unquote url = some (join ws) := by
  obtain ⟨-, hparts, hnodup⟩ := table_wellFormed name
  rw [← hkeys] at hnodup
  obtain ⟨texts, hts, hreads⟩ := substituteAll_reads h (lookup_of_mem hnodup) hutf
    fun t ht => List.all_eq_true.1 hparts _ ht
  refine ⟨join texts, ?_, (reads_join hreads).unquote⟩
  rw [build_path, hts]
  rfl

/-! ### What the parameters may be -/

/-- The values that a parameter may have: a slug that `slug_from_name` returns, a path that
`validate_site_path` accepts as it is, an id of one or more characters other than a slash. -/
def Admits (rt : Runtime) (key v : Str) : Prop :=
  if key = lit "slug" then ∃ name, slug_from_name rt name = .ok v
  else if key = lit "path" then validate_site_path rt v false = .ok v
  else v ≠ [] ∧ slash ∉ v

variable {rt : Runtime}

/-- A slug fills one component of a path, and has an encoding. -/
theorem plain_of_slug {v : Str} (hs : IsSlug v) : v ≠ [] ∧ slash ∉ v ∧ ∀ c ∈ v, isAscii c = true := by
  obtain ⟨c, u, hv, -⟩ := hs.first
  have hchar : ∀ c, isSlugChar c = true → c ≠ slash ∧ isAscii c = true := by
    intro c hc
    simp only [isSlugChar, isAlnum, isDigit, isLower, between, Bool.or_eq_true, Bool.and_eq_true,
      decide_eq_true_eq, beq_iff_eq] at hc
    refine ⟨?_, ?_⟩
    · rintro rfl
      revert hc
      decide
    · rcases hc with (hc | hc) | rfl
      · exact decide_eq_true (lt_of_le_of_lt hc.2 (by decide))
      · exact decide_eq_true (lt_of_le_of_lt hc.2 (by decide))
      · decide
  exact ⟨by rw [hv]; exact List.cons_ne_nil _ _, fun hmem => (hchar _ (hs.chars _ hmem)).1 rfl,
    fun c hc => (hchar c (hs.chars c hc)).2⟩

theorem slug_plain {name v : Str} (h : slug_from_name rt name = .ok v) :
    v ≠ [] ∧ slash ∉ v ∧ ∃ b, utf8 v = some b := by
  obtain ⟨hne, hslash, hascii⟩ := plain_of_slug (slug_from_name_valid h)
  exact ⟨hne, hslash, _, utf8_ascii hascii⟩

/-- So does what `validate_slug` accepts. -/
theorem valid_slug_plain {v : Str} (h : validate_slug rt v = .ok v) :
    v ≠ [] ∧ slash ∉ v ∧ ∃ b, utf8 v = some b := by
  rw [validate_slug] at h
  split_ifs at h with hm
  obtain ⟨body, hbody, hv⟩ := matches_SLUG_RE.1 hm
  obtain ⟨hne, hslash, hascii⟩ := plain_of_slug hbody
  rcases hv with rfl | rfl
  · exact ⟨hne, hslash, _, utf8_ascii hascii⟩
  · refine ⟨by simp, fun hmem => ?_, _, utf8_ascii fun c hc => ?_⟩
    · rcases List.mem_append.1 hmem with hmem | hmem
      · exact hslash hmem
      · exact absurd (List.mem_singleton.1 hmem) (by decide)
    · rcases List.mem_append.1 hc with hc | hc
      · exact hascii c hc
      · rw [List.mem_singleton.1 hc]
        decide

theorem utf8_join {segs : List Str} (h : ∀ s ∈ segs, ∃ b, utf8 s = some b) :
    ∃ b, utf8 (join segs) = some b := by
  induction segs with
  | nil => exact ⟨[], rfl⟩
  | cons s segs ih =>
    obtain ⟨b, hb⟩ := h s List.mem_cons_self
    obtain ⟨bs, hbs⟩ := ih fun t ht => h t (List.mem_cons_of_mem _ ht)
    rcases eq_or_ne segs [] with rfl | hne
    · exact ⟨b, by rw [join_singleton, hb]⟩
    · refine ⟨b ++ (UInt8.ofNat slash.val :: bs), ?_⟩
      have hslash : utf8Char slash = some [UInt8.ofNat slash.val] := by decide
      rw [join_cons hne, utf8_append, hb, utf8, hslash, hbs]
      rfl

theorem path_plain {v : Str} (h : validate_site_path rt v false = .ok v) :
    newline ∉ v ∧ ∃ b, utf8 v = some b := by
  obtain ⟨segs, -, hsegs, rfl, -⟩ := SitePaths.accepted_iff.1 h
  refine ⟨fun hmem => ?_, utf8_join fun s hs => ?_⟩
  · rcases SitePaths.mem_join hmem with hc | ⟨s, hs, hc⟩
    · exact absurd hc (by decide)
    · exact absurd ((hsegs s hs).plain _ hc) (by decide)
  · obtain ⟨b, hb, -⟩ := (hsegs s hs).bytes
    exact ⟨b, hb⟩

/-- **Values that suit a template** whose parts are regular fill it: that of `path` has no line feed,
and any other fills one component. -/
theorem suited_fills {ps : List Part} {params : List (Str × Str)} (hwf : wellFormed ps = true)
    (hreg : ps.all regular = true) (hkeys : params.map Prod.fst = keys ps)
    (hpath : ∀ v, (lit "path", v) ∈ params → newline ∉ v)
    (hparam : ∀ kv ∈ params, kv.1 ≠ lit "path" → kv.2 ≠ [] ∧ slash ∉ kv.2) :
    ∃ ws, Fills ps params ws := by
  refine exists_fills hwf hkeys (fun key hk v hmem => ?_) fun key hk v hmem => ?_
  · have hkey : key = lit "path" := by simpa [regular] using List.all_eq_true.1 hreg _ hk
    rw [hkey] at hmem
    exact hpath v hmem
  · have hkey : key ≠ lit "path" := by simpa [regular] using List.all_eq_true.1 hreg _ hk
    exact hparam _ hmem hkey

/-- **A route's URL** is decoded to a path that selects the route with the values it was built
from. -/
theorem suited_selects {name : RouteName} {params : List (Str × Str)} (hkeys : Parameters name params)
    (hpath : ∀ v, (lit "path", v) ∈ params → newline ∉ v)
    (hparam : ∀ kv ∈ params, kv.1 ≠ lit "path" → kv.2 ≠ [] ∧ slash ∉ kv.2)
    (hutf : ∀ kv ∈ params, ∃ b, utf8 kv.2 = some b) :
    ∃ url path, build_path name params = .ok url ∧ unquote url = some path ∧
      select (route name).method path = some (name, params) := by
  obtain ⟨hwf, hreg, -⟩ := table_wellFormed name
  obtain ⟨ws, hfill⟩ := suited_fills hwf hreg hkeys hpath hparam
  obtain ⟨url, hurl, hread⟩ := build_path_reads hkeys hfill hutf
  exact ⟨url, join ws, hurl, hread, select_filled hfill⟩

/-- Admitted values are read back from the URL that they are put into. -/
theorem url_selects {name : RouteName} {params : List (Str × Str)} (hkeys : Parameters name params)
    (hv : ∀ kv ∈ params, Admits rt kv.1 kv.2) (hutf : ∀ kv ∈ params, ∃ b, utf8 kv.2 = some b) :
    ∃ url path, build_path name params = .ok url ∧ unquote url = some path ∧
      select (route name).method path = some (name, params) := by
  refine suited_selects hkeys (fun v hmem => ?_) (fun kv hmem hne => ?_) hutf
  · have hadm := hv _ hmem
    rw [Admits, if_neg (by decide : lit "path" ≠ lit "slug"), if_pos rfl] at hadm
    exact (path_plain hadm).1
  · have hadm := hv _ hmem
    rw [Admits, if_neg hne] at hadm
    split_ifs at hadm with hslug
    · obtain ⟨name, hname⟩ := hadm
      exact ⟨(slug_plain hname).1, (slug_plain hname).2.1⟩
    · exact hadm

end PaperBoxing.Common.RouteTable
