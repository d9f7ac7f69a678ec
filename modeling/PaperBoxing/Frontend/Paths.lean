import PaperBoxing.Common.RouteTable

/-! # The download links

`download_url` of `frontend/paths.py` against the route it is for; with the route table, all URLs the
client and the pages build.

* `download_matches`: a link is decoded to a path that fits the route with the same slug and path;
* `urls_decode`: every URL decodes to what was meant, and so no two share one. -/

namespace PaperBoxing.Frontend.Paths

open PaperBoxing.Lib.Text PaperBoxing.Lib.Percent PaperBoxing.Lib.Templates
open PaperBoxing.Common.Scopes PaperBoxing.Common.Schema PaperBoxing.Common.Naming
open PaperBoxing.Common.RouteTable

def DOWNLOAD_PREFIX : Str := lit "/download"

def DOWNLOAD_ROUTE : Str := DOWNLOAD_PREFIX ++ lit "/\x7bslug\x7d/\x7bpath:path\x7d"

/-- `download_url`; none where the quoting raises. -/
def download_url (slug path : Str) : Option Str := do
  let slug ← quoteBut isUnreserved slug
  let path ← quoteBut isSafe path
  pure (DOWNLOAD_PREFIX ++ lit "/" ++ slug ++ lit "/" ++ path)

/-- The slug and the path of a decoded path on the download route. -/
def downloadMatch (path : Str) : Option (List (Str × Str)) :=
  matchParts (parts DOWNLOAD_ROUTE) (split path)

variable {rt : Runtime} {slug path : Str}

theorem downloadParts : parts DOWNLOAD_ROUTE =
    [.literal [], .literal (lit "download"), .param (lit "slug") false, .param (lit "path") true] := by
  decide +kernel

theorem isUnreserved_keeps : Keeps isUnreserved :=
  fun c hc => keeps_isSafe c (Bool.and_eq_true_iff.1 hc).1

/-- **A download link is decoded to its slug and path.** -/
theorem download_matches (hslug : ∃ name, slug_from_name rt name = .ok slug)
    (hpath : validate_site_path rt path false = .ok path) : ∃ url s,
      download_url slug path = some url ∧ unquote url = some s ∧
      downloadMatch s = some [(lit "slug", slug), (lit "path", path)] := by
  obtain ⟨name, hname⟩ := hslug
  obtain ⟨hne, hslash, bs, hbs⟩ := slug_plain hname
  obtain ⟨hnewline, bp, hbp⟩ := path_plain hpath
  obtain ⟨qs, hqs⟩ := exists_quoteBut isUnreserved hbs
  obtain ⟨qp, hqp⟩ := exists_quoteBut isSafe hbp
  have hfill : Fills (parts DOWNLOAD_ROUTE) [(lit "slug", slug), (lit "path", path)]
      [[], lit "download", slug, path] := by
    rw [downloadParts]
    exact .literal _ (.literal _ (.param _ hne hslash (.rest _ hnewline)))
  have hreads : Reads (join [[], lit "download", qs, qp]) (join [[], lit "download", slug, path]) := by
    have hlit : ∀ c ∈ lit "download", isSafe c = true := List.all_eq_true.1 (by decide)
    refine reads_join (.cons ⟨[], rfl, fun rest => by simp⟩ (.cons ?_ (.cons ?_ (.cons ?_ .nil))))
    · exact reads_quoteBut keeps_isSafe (quoteBut_kept keeps_isSafe hlit)
    · exact reads_quoteBut isUnreserved_keeps hqs
    · exact reads_quoteBut keeps_isSafe hqp
  have hurl : download_url slug path = some (join [[], lit "download", qs, qp]) := by
    rw [download_url, hqs, hqp, join_cons (by simp), join_cons (by simp), join_cons (by simp),
      join_singleton]
    refine congrArg some ?_
    simp only [List.append_assoc, List.nil_append]
    rfl
  refine ⟨_, _, hurl, hreads.unquote, ?_⟩
  have hwf : wellFormed (parts DOWNLOAD_ROUTE) = true := by decide +kernel
  exact (matchParts_iff (parts_ne_nil _) (literals_of_wellFormed hwf)).2 ⟨_, hfill, rfl⟩

/-! ### All URLs -/

/-- **What is asked of URLs**, for the parameter values that are allowed. -/
structure Decoded (rt : Runtime) (allowed : Str → Prop) : Prop where
  routes : ∀ name params, Parameters name params →
    (∀ kv ∈ params, Admits rt kv.1 kv.2 ∧ allowed kv.2) →
    ∃ url path, build_path name params = .ok url ∧ unquote url = some path ∧
      select (route name).method path = some (name, params)
  distinct : ∀ name name' params params', Parameters name params → Parameters name' params' →
    (∀ kv ∈ params, Admits rt kv.1 kv.2 ∧ allowed kv.2) →
    (∀ kv ∈ params', Admits rt kv.1 kv.2 ∧ allowed kv.2) →
    (route name).method = (route name').method → build_path name params = build_path name' params' →
    name = name' ∧ params = params'
  download : ∀ slug path, (∃ name, slug_from_name rt name = .ok slug) →
    validate_site_path rt path false = .ok path →
    ∃ url s, download_url slug path = some url ∧ unquote url = some s ∧
      downloadMatch s = some [(lit "slug", slug), (lit "path", path)]
  download_distinct : ∀ slug slug' path path', (∃ name, slug_from_name rt name = .ok slug) →
    (∃ name, slug_from_name rt name = .ok slug') → validate_site_path rt path false = .ok path →
    validate_site_path rt path' false = .ok path' →
    download_url slug path = download_url slug' path' → slug = slug' ∧ path = path'

/-- **Every URL decodes to what was meant**, of values that have an encoding. -/
theorem urls_decode (rt : Runtime) : Decoded rt fun v => ∃ b, utf8 v = some b where
  routes name params hkeys h := url_selects hkeys (fun kv hkv => (h kv hkv).1) fun kv hkv => (h kv hkv).2
  distinct name name' params params' hkeys hkeys' h h' hmethod hurl := by
    obtain ⟨url, path, hbuild, hread, hselect⟩ :=
      url_selects hkeys (fun kv hkv => (h kv hkv).1) fun kv hkv => (h kv hkv).2
    obtain ⟨url', path', hbuild', hread', hselect'⟩ :=
      url_selects hkeys' (fun kv hkv => (h' kv hkv).1) fun kv hkv => (h' kv hkv).2
    rw [hurl, hbuild'] at hbuild
    obtain rfl := Except.ok.inj hbuild
    obtain rfl := Option.some.inj (hread.symm.trans hread')
    rw [hmethod, hselect'] at hselect
    obtain ⟨rfl, rfl⟩ := Prod.mk.inj (Option.some.inj hselect)
    exact ⟨rfl, rfl⟩
  download slug path hslug hpath := download_matches hslug hpath
  download_distinct slug slug' path path' hslug hslug' hpath hpath' hurl := by
    obtain ⟨url, s, hbuild, hread, hmatch⟩ := download_matches hslug hpath
    obtain ⟨url', s', hbuild', hread', hmatch'⟩ := download_matches hslug' hpath'
    rw [hurl, hbuild'] at hbuild
    obtain rfl := Option.some.inj hbuild
    obtain rfl := Option.some.inj (hread.symm.trans hread')
    rw [hmatch'] at hmatch
    simpa [eq_comm] using hmatch

/-- An id that is a lone surrogate has no URL: the quoting raises. -/
theorem urls_decode_surrogate : ¬ Decoded plainRuntime fun _ => True := by
  intro h
  have hvalue : ∀ kv ∈ [(lit "token_id", [(0xD800 : CodePoint)])],
      Admits plainRuntime kv.1 kv.2 ∧ True := by
    intro kv hkv
    rw [List.mem_singleton.1 hkv]
    refine ⟨?_, trivial⟩
    rw [Admits, if_neg (by decide), if_neg (by decide)]
    decide
  have hkeys : Parameters .revoke_token [(lit "token_id", [(0xD800 : CodePoint)])] := by
    rw [Parameters]
    decide +kernel
  obtain ⟨url, path, hbuild, -⟩ := h.routes .revoke_token _ hkeys hvalue
  have hraise : build_path .revoke_token [(lit "token_id", [(0xD800 : CodePoint)])] =
      .error .unicode_error := by decide +kernel
  rw [hraise] at hbuild
  cases hbuild

end PaperBoxing.Frontend.Paths
