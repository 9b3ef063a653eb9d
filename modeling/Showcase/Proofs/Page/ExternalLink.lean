import Showcase.Page.Engine
import Showcase.Proofs.Text.Basic

/-!
# Which links leave the site

The address of a web page names its host in the *authority*, which ends at the path, at the query or
at the fragment (`IsAddress`). A link leaves the site if its authority is not the site's domain
(`LeavesSite`).

What is compared with the domain is the text up to the first slash, so a query or a fragment that
follows the host without a path is taken for a part of the host. No link to another host is missed,
but a link to the site itself counts as leaving it if its address goes on in this way. The main
statement, `leadsAway_iff`, says that these are the only wrong answers.
-/

namespace Showcase.ExternalLink

/-- A character at which the authority of an address ends. -/
def endsAuthority (c : Char) : Bool := c == '/' || c == '?' || c == '#'

/-- The address of a web page, with its authority and what follows that. -/
structure IsAddress (href authority rest : Text) : Prop where
  /-- the scheme of web pages comes before the authority -/
  scheme : href = "http://".toList ++ (authority ++ rest) ∨
    href = "https://".toList ++ (authority ++ rest)
  /-- the authority goes no further than this -/
  ended : ∀ c ∈ rest.head?, endsAuthority c = true
  /-- and no less far -/
  whole : ∀ c ∈ authority, endsAuthority c = false

/-- The link names a host other than the site's own. -/
def LeavesSite (domain href : Text) : Prop :=
  ∃ authority rest, IsAddress href authority rest ∧ authority ≠ domain

/-- The query or the fragment follows, and no path. -/
def BeginsQuery (rest : Text) : Prop := rest.head? = some '?' ∨ rest.head? = some '#'

theorem afterScheme?_eq_some_iff {href t : Text} : afterScheme? href = some t ↔
    href = "http://".toList ++ t ∨ href = "https://".toList ++ t := by
  rw [afterScheme?, ← Text.after?_eq_some_iff, ← Text.after?_eq_some_iff]
  cases h : Text.after? "http://".toList href with
  | none => simp
  | some u =>
    -- an address has one scheme only
    have hsecure : Text.after? "https://".toList href = none := by
      rw [Text.after?_eq_some_iff.1 h]
      rfl
    rw [hsecure]
    simp

theorem IsAddress.afterScheme? {href authority rest : Text} (h : IsAddress href authority rest) :
    afterScheme? href = some (authority ++ rest) :=
  afterScheme?_eq_some_iff.2 h.scheme

/-- What follows the scheme always has an authority. -/
theorem exists_isAddress {href t : Text} (h : afterScheme? href = some t) :
    ∃ authority rest, IsAddress href authority rest := by
  refine ⟨t.takeWhile (!endsAuthority ·), t.dropWhile (!endsAuthority ·), ?_, ?_, ?_⟩
  · rw [List.takeWhile_append_dropWhile]
    exact afterScheme?_eq_some_iff.1 h
  · intro c hc
    have := List.head?_dropWhile_not (!endsAuthority ·) t
    rw [Option.mem_def.1 hc] at this
    simpa using this
  · intro c hc
    simpa using List.all_eq_true.1 (List.all_takeWhile ..) c hc

/-- An address has one authority. -/
theorem IsAddress.unique {href a b r s : Text} (h : IsAddress href a r) (h' : IsAddress href b s) :
    a = b ∧ r = s := by
  have e : a ++ r = b ++ s := Option.some.inj (h.afterScheme?.symm.trans h'.afterScheme?)
  have htake {x y : Text} (hx : ∀ c ∈ x, endsAuthority c = false)
      (hy : ∀ c ∈ y.head?, endsAuthority c = true) :
      (x ++ y).takeWhile (!endsAuthority ·) = x := by
    rw [List.takeWhile_append_of_pos fun c hc => by simp [hx c hc]]
    cases y with
    | nil => simp
    | cons c y => simp [hy c rfl]
  have hab : a = b := by
    rw [← htake h.whole h.ended, ← htake h'.whole h'.ended, e]
  subst hab
  exact ⟨rfl, List.append_cancel_left e⟩

/-- What is compared with the domain is the authority, unless a query or a fragment follows it. -/
theorem host_eq_iff {domain a r : Text} (hdomain : ∀ c ∈ domain, endsAuthority c = false)
    (hwhole : ∀ c ∈ a, endsAuthority c = false) (hended : ∀ c ∈ r.head?, endsAuthority c = true) :
    host (a ++ r) = domain ↔ a = domain ∧ ¬ BeginsQuery r := by
  have hslash : ∀ c ∈ a, (c != '/') = true := by
    intro c hc
    have := hwhole c hc
    simp only [endsAuthority, Bool.or_eq_false_iff] at this
    simp [bne, this.1.1]
  rw [host, List.takeWhile_append_of_pos hslash]
  cases r with
  | nil => simp [BeginsQuery]
  | cons c r =>
    by_cases hc : c = '/'
    · subst hc
      simp [BeginsQuery]
    · -- the mark that ends the authority is taken with it, and the domain has none
      have hmark : endsAuthority c = true := hended c rfl
      have hquery : BeginsQuery (c :: r) := by
        simpa [endsAuthority, hc, BeginsQuery] using hmark
      refine iff_of_false ?_ fun h => h.2 hquery
      rintro rfl
      have hin : c ∈ a ++ (c :: r).takeWhile (· != '/') := by simp [hc]
      rw [hdomain c hin] at hmark
      cases hmark

/-- **Which links leave the site.** The answer is right for every link, unless it is one to the site
itself with a query or a fragment directly after the domain; such a link is said to leave the
site. -/
theorem leadsAway_iff {domain : Text} (hne : domain ≠ [])
    (hdomain : ∀ c ∈ domain, endsAuthority c = false) (href : Text) :
    (leadsAway domain href = true ↔ LeavesSite domain href ∨
        ∃ rest, IsAddress href domain rest ∧ BeginsQuery rest) ∧
      ((leadsAway domain href = true ↔ LeavesSite domain href) ↔
        ¬ ∃ rest, IsAddress href domain rest ∧ BeginsQuery rest) := by
  have hempty : domain.isEmpty = false := by simpa using hne
  -- first what the code does: it also sends away links to the site with a query right behind the
  -- domain
  have hiff : leadsAway domain href = true ↔ LeavesSite domain href ∨
      ∃ rest, IsAddress href domain rest ∧ BeginsQuery rest := by
    rw [leadsAway]
    cases hscheme : afterScheme? href with
    | none =>
      refine iff_of_false Bool.false_ne_true ?_
      rintro (⟨a, r, h, -⟩ | ⟨r, h, -⟩) <;> exact nomatch h.afterScheme?.symm.trans hscheme
    | some t =>
      -- a link with a scheme has one authority, and it is compared with the domain
      obtain ⟨a, r, h⟩ := exists_isAddress hscheme
      obtain rfl : a ++ r = t := Option.some.inj (h.afterScheme?.symm.trans hscheme)
      have haway : (domain.isEmpty || host (a ++ r) != domain) = true ↔
          ¬ (a = domain ∧ ¬ BeginsQuery r) := by
        rw [← host_eq_iff hdomain h.whole h.ended, hempty, Bool.false_or, bne_iff_ne]
      refine haway.trans ⟨fun hnot => ?_, ?_⟩
      · by_cases ha : a = domain
        · subst ha
          exact Or.inr ⟨r, h, Classical.not_not.1 fun hq => hnot ⟨rfl, hq⟩⟩
        · exact Or.inl ⟨a, r, h, ha⟩
      · rintro (⟨b, s, hb, hne'⟩ | ⟨s, hs, hq⟩) ⟨rfl, hnot⟩
        · exact hne' (h.unique hb).1.symm
        · exact hnot ((h.unique hs).2 ▸ hq)
  -- the two agree exactly if there is no such link
  refine ⟨hiff, fun hright => ?_, fun hnone => ?_⟩
  · rintro ⟨r, h, hq⟩
    obtain ⟨a, s, h', ha⟩ := hright.1 (hiff.2 (Or.inr ⟨r, h, hq⟩))
    exact ha (h.unique h').1.symm
  · rw [hiff, or_iff_left hnone]

/-- The domain of a site. -/
def siteDomain : Text := "docs.example.com".toList

theorem endsAuthority_siteDomain : ∀ c ∈ siteDomain, endsAuthority c = false :=
  Text.forall_mem_of_all (by decide +kernel)

/-- A page of the site, with a query. -/
def searchPage : Text := "https://docs.example.com/search?q=1".toList

theorem leadsAway_iff_searchPage :
    siteDomain ≠ [] ∧ (∀ c ∈ siteDomain, endsAuthority c = false) ∧
      (leadsAway siteDomain searchPage = true ↔ LeavesSite siteDomain searchPage) := by
  have hne : siteDomain ≠ [] := by decide +kernel
  have hdomain := endsAuthority_siteDomain
  have haddress : IsAddress searchPage siteDomain ('/' :: "search?q=1".toList) :=
    ⟨Or.inr rfl, by simp [endsAuthority], hdomain⟩
  refine ⟨hne, hdomain, (leadsAway_iff hne hdomain searchPage).2.2 ?_⟩
  rintro ⟨r, h, hq⟩
  obtain ⟨-, rfl⟩ := haddress.unique h
  revert hq
  simp [BeginsQuery]

/-- The start page of the site, with a query. -/
def startPage : Text := "https://docs.example.com?q=1".toList

/-- **A link to the site itself.** It is said to leave the site. -/
theorem leadsAway_startPage :
    IsAddress startPage siteDomain ('?' :: "q=1".toList) ∧ ¬ LeavesSite siteDomain startPage ∧
      leadsAway siteDomain startPage = true := by
  have haddress : IsAddress startPage siteDomain ('?' :: "q=1".toList) :=
    ⟨Or.inr rfl, by simp [endsAuthority], endsAuthority_siteDomain⟩
  refine ⟨haddress, ?_, by decide +kernel⟩
  rintro ⟨a, r, h, ha⟩
  exact ha (haddress.unique h).1.symm

end Showcase.ExternalLink
