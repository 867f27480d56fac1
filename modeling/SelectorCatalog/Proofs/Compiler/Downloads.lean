import SelectorCatalog.Proofs.Compiler.Pinned

/-!
# What a download attempts, and where each release goes

A download looks once at what is in the cache, and then goes through the releases that it is asked
for. It attempts the requests whose release was not at hand, each request once (`Cache.attempts`,
`Cache.makes_attempts`); `BinaryStore.fetchEach_eq` tells what their outcomes make of the summary
and of the cache. What is fetched is listed from then on (`Cache.exists_installed_foldl_add`).

Requests for one release are not told apart from requests for several: the look at the cache is not
renewed, so a release that is asked for again is attempted again. `Resolver.download_accounts` says
how often a release is attempted, exactly when it has one place in the summary, and that a second
download skips what the first one fetched or skipped.
-/

set_option autoImplicit false

namespace SelectorCatalog

theorem OrderedMap.mem_names_foldl_insert {α : Type} {pairs : List (String × α)}
    {m : OrderedMap α} {name : String} :
    name ∈ Assoc.names (pairs.foldl (fun m p => m.insert p.1 p.2) m).entries ↔
      name ∈ Assoc.names m.entries ∨ name ∈ Assoc.names pairs := by
  induction pairs generalizing m with
  | nil => simp [Assoc.names]
  | cons p rest ih =>
    have first : name ∈ Assoc.names (m.insert p.1 p.2).entries ↔
        name ∈ Assoc.names m.entries ∨ name = p.1 := by
      rw [insert, Assoc.names_set]
      split
      · rename_i there
        exact ⟨.inl, fun h => h.elim id fun same => same ▸ there⟩
      · simp
    rw [List.foldl_cons, ih, first]
    simp [Assoc.names, or_assoc]

/-! ## Growing caches -/

/-- A cache in the same directory with all binaries of another one. -/
structure Cache.GrowsTo (c after : Cache) : Prop where
  directory : after.directory = c.directory
  names : ∀ name ∈ c.names, name ∈ after.names

namespace Cache

theorem GrowsTo.refl (c : Cache) : c.GrowsTo c := ⟨rfl, fun _ mem => mem⟩

theorem GrowsTo.trans {c d e : Cache} (first : c.GrowsTo d) (second : d.GrowsTo e) : c.GrowsTo e :=
  ⟨second.directory.trans first.directory, fun name mem => second.names name (first.names name mem)⟩

theorem mem_names_add {c : Cache} {release name : String} :
    name ∈ (c.add release).names ↔ name ∈ c.names ∨ name = binaryName release := by
  unfold add
  split
  · rename_i there
    have old : binaryName release ∈ c.names := by simpa [holds] using there
    exact ⟨.inl, fun h => h.elim id fun same => same ▸ old⟩
  · simp

theorem growsTo_add (c : Cache) (release : String) : c.GrowsTo (c.add release) := by
  refine ⟨?_, fun name mem => mem_names_add.2 (.inl mem)⟩
  unfold add
  split <;> rfl

theorem growsTo_foldl_add (releases : List String) (c : Cache) :
    c.GrowsTo (releases.foldl add c) := by
  induction releases generalizing c with
  | nil => exact .refl c
  | cons release rest ih => exact (growsTo_add c release).trans (ih _)

theorem mem_names_foldl_add {releases : List String} {c : Cache} {name : String} :
    name ∈ (releases.foldl add c).names ↔
      name ∈ c.names ∨ ∃ release ∈ releases, name = binaryName release := by
  induction releases generalizing c with
  | nil => simp
  | cons release rest ih => simp [ih, mem_names_add, or_assoc]

/-! ## What a cache lists -/

/-- The numbers that the name of a binary tells. -/
def numbersIn (name : String) : Except Fault (List Nat) :=
  match numbersOf? (name.toList.drop binaryMark.length) with
  | some numbers => .ok numbers
  | none => .error .badRelease

/-- Whether a name is that of a binary. -/
def isBinary (name : String) : Bool := binaryMark.toList.isPrefixOf name.toList

/-- The text of the numbers of a release. -/
def pointed (numbers : List Nat) : String := ".".intercalate (numbers.map fun n => toString n)

/-- The names of binaries are read one after the other, and what they tell is listed in some
order. -/
theorem installed_eq_ok {c : Cache} {present : List String} (h : c.installed = .ok present) :
    ∃ found, (c.names.filter isBinary).mapM numbersIn = .ok found ∧
      ∀ release, release ∈ present ↔ ∃ numbers ∈ found, pointed numbers = release := by
  obtain ⟨found, read, rest⟩ := bind_eq_ok.1 h
  refine ⟨found, read, fun release => ?_⟩
  cases rest
  simp [pointed]

theorem succeeds_installed {c : Cache} :
    Succeeds c.installed ↔ ∀ name ∈ c.names, isBinary name = true → Succeeds (numbersIn name) := by
  have reading : Succeeds c.installed ↔ Succeeds ((c.names.filter isBinary).mapM numbersIn) := by
    refine succeeds_bind.trans ⟨?_, ?_⟩
    · rintro ⟨found, read, -⟩
      exact ⟨found, read⟩
    · rintro ⟨found, read⟩
      exact ⟨found, read, succeeds_pure _⟩
  rw [reading, succeeds_mapM]
  simp only [List.mem_filter, and_imp]

/-- **A release is listed exactly if the name of a binary tells its numbers.** -/
theorem mem_installed {c : Cache} {present : List String} (h : c.installed = .ok present)
    {release : String} :
    release ∈ present ↔
      ∃ name ∈ c.names, isBinary name = true ∧ ∃ numbers, numbersIn name = .ok numbers ∧
        pointed numbers = release := by
  obtain ⟨found, read, mem⟩ := installed_eq_ok h
  simp only [mem, mem_of_mapM read, List.mem_filter]
  grind

/-- The numbers of a release are read off its text. -/
theorem numbersOf?_render (r : Release) :
    numbersOf? r.render.toList = some [r.major, r.minor, r.patch] := by
  have group (n : Nat) :
      ((Nat.toDigits 10 n).isEmpty || !(Nat.toDigits 10 n).all Char.isDigit) = false := by
    have digits : (Nat.toDigits 10 n).all Char.isDigit = true :=
      List.all_eq_true.2 fun c mem => Nat.isDigit_of_mem_toDigits (by decide) (by decide) mem
    simp [digits, Nat.toDigits_ne_nil]
  have value (n : Nat) : Text.digitsValue ((Nat.toDigits 10 n).map fun c => c.toNat - 48) = n :=
    Json.valueOf_toDigits n
  have parts : r.render.toList.splitOn '.' =
      [Nat.toDigits 10 r.major, Nat.toDigits 10 r.minor, Nat.toDigits 10 r.patch] := by
    have joined : r.render.toList =
        ['.'].intercalate [Nat.toDigits 10 r.major, Nat.toDigits 10 r.minor,
          Nat.toDigits 10 r.patch] := by
      simp [Release.toList_render, Release.dotted, List.intercalate]
    rw [joined, List.splitOn_intercalate]
    · intro part mem point
      simp only [List.mem_cons, List.not_mem_nil, or_false] at mem
      rcases mem with rfl | rfl | rfl <;>
        exact absurd (Text.isDecimalDigit_of_mem_toDigits point) (by decide)
    · simp
  have read : (r.render.toList.splitOn '.').mapM (fun group =>
      if group.isEmpty || !group.all Char.isDigit then none
      else some (Text.digitsValue (group.map fun c => c.toNat - 48))) = some [r.major, r.minor,
        r.patch] := by
    rw [parts]
    simp only [List.mapM_cons, List.mapM_nil, group, value, Bool.false_eq_true, if_false]
    rfl
  unfold numbersOf?
  dsimp only
  split
  · -- A release is made of digits and points, so no letter is taken off its front.
    rename_i rest marked
    have letter : 'v' ∈ r.render.toList := marked ▸ List.mem_cons_self
    rw [Release.toList_render] at letter
    have core :=
      Release.isCoreChar_of_mem_dotted (Release.isGroup_toDigits _) (Release.isGroup_toDigits _)
      (Release.isGroup_toDigits _) _ letter
    exact absurd rfl (core.ne (by decide))
  · exact read

theorem numbersIn_binaryName (r : Release) :
    numbersIn (binaryName r.render) = .ok [r.major, r.minor, r.patch] := by
  have rest : (binaryName r.render).toList.drop binaryMark.length = r.render.toList := by
    rw [binaryName, String.toList_append, ← String.length_toList, List.drop_left]
  rw [numbersIn, rest, numbersOf?_render]

theorem pointed_numbers (r : Release) : pointed [r.major, r.minor, r.patch] = r.render := rfl

theorem isBinary_binaryName (release : String) : isBinary (binaryName release) = true := by
  simp [isBinary, binaryName, List.isPrefixOf_iff_prefix]

/-! ## Listing after growth -/

/-- **What was listed stays listed as binaries of releases come in**, and with it all releases that
came in. -/
theorem exists_installed_foldl_add {c : Cache} {present : List String}
    (h : c.installed = .ok present) {fetched : List String}
    (pinned : ∀ release ∈ fetched, ∃ r : Release, r.render = release) :
    ∃ later, (fetched.foldl add c).installed = .ok later ∧ ∀ release ∈ fetched ++ present,
      release ∈ later := by
  have readable : Succeeds (fetched.foldl add c).installed := by
    refine succeeds_installed.2 fun name mem binary => ?_
    rcases mem_names_foldl_add.1 mem with old | ⟨release, new, rfl⟩
    · exact succeeds_installed.1 ⟨present, h⟩ name old binary
    · obtain ⟨r, rfl⟩ := pinned release new
      exact ⟨_, numbersIn_binaryName r⟩
  obtain ⟨later, listed⟩ := readable
  refine ⟨later, listed, fun release mem => ?_⟩
  rcases List.mem_append.1 mem with new | old
  · obtain ⟨r, rfl⟩ := pinned release new
    have there : binaryName r.render ∈ (fetched.foldl add c).names :=
      mem_names_foldl_add.2 (.inr ⟨_, new, rfl⟩)
    exact (mem_installed listed).2 ⟨_, there, isBinary_binaryName _, _,
      numbersIn_binaryName r, pointed_numbers r⟩
  · obtain ⟨name, there, told⟩ := (mem_installed h).1 old
    exact (mem_installed listed).2 ⟨name, (growsTo_foldl_add _ c).names name there, told⟩

end Cache

/-! ## Attempts -/

/-- The attempts of a download: the requests for releases that were not present, with their
numbers. -/
def Cache.attempts (present : List String) (made : Nat) (requested : List String) :
    List (String × Nat) :=
  (requested.filter fun release => !present.contains release).zipIdx made

/-- What an attempt comes to. -/
def Site.outcome (site : Site) (attempt : String × Nat) :
    FetchOutcome := site.fetch attempt.2 attempt.1

/-- The releases that attempts fetch. -/
def Site.fetched (site : Site) (tries : List (String × Nat)) : List String :=
  (tries.filter fun attempt => site.outcome attempt = .fetched).map Prod.fst

/-- The releases that attempts do not fetch, with the reasons. -/
def Site.refused (site : Site) (tries : List (String × Nat)) : List (String × String) :=
  tries.filterMap fun attempt => match site.outcome attempt with
    | .refused reason => some (attempt.1, reason)
    | _ => none

/-- No attempt fails in an unforeseen way. -/
def Site.IsSteadyAt (site : Site) (tries : List (String × Nat)) : Prop :=
  ∀ attempt ∈ tries, site.outcome attempt ≠ .crashed

/-- The number of places that a release has in a summary. -/
def DownloadSummary.places (s : DownloadSummary) (release : String) : Nat :=
  s.installed.count release + s.skipped.count release + (Assoc.names s.failed.entries).count release

/-- Each attempt fetches its release, or tells why not. -/
theorem Site.count_fetched {site : Site} {tries : List (String × Nat)}
    (steady : site.IsSteadyAt tries) (release : String) :
    (site.fetched tries).count release + (Assoc.names (site.refused tries)).count release =
      (tries.map Prod.fst).count release := by
  induction tries with
  | nil => rfl
  | cons attempt rest ih =>
    have ⟨first, others⟩ := List.forall_mem_cons.1 steady
    have counted := ih others
    simp only [fetched, refused, Assoc.names] at counted ⊢
    cases outcome : site.outcome attempt with
    | fetched =>
      simp [outcome, List.count_cons, ← counted]
      omega
    | refused reason =>
      simp [outcome, List.count_cons, ← counted]
      omega
    | crashed => exact absurd outcome first

namespace Cache

variable {site : Site} {present : List String}

theorem attempts_cons_of_present {release : String} (there : release ∈ present) (made : Nat)
    (rest : List String) :
    attempts present made (release :: rest) = attempts present made rest := by
  simp [attempts, there]

theorem attempts_cons_of_missing {release : String} (missing : release ∉ present) (made : Nat)
    (rest : List String) :
    attempts present made (release :: rest) =
      (release, made) :: attempts present (made + 1) rest := by
  simp [attempts, missing]

end Cache

namespace BinaryStore

open Cache

variable {σ : Type} [BinaryStore σ] {site : Site} {present : List String}

/-- **What a download comes to**: what was present is skipped, and each attempt is written down. -/
theorem fetchEach_eq {requested : List String} {made : Nat} (c : σ) (s : DownloadSummary)
    (steady : site.IsSteadyAt (attempts present made requested)) :
    fetchEach site present made requested c s =
      (.ok {
        installed := s.installed ++ site.fetched (attempts present made requested)
        skipped := s.skipped ++ requested.filter present.contains
        failed := (site.refused (attempts present made requested)).foldl (fun m p =>
          m.insert p.1 p.2) s.failed },
      (site.fetched (attempts present made requested)).foldl install c) := by
  induction requested generalizing made c s with
  | nil => simp [fetchEach, attempts, Site.fetched, Site.refused]
  | cons release rest ih =>
    by_cases there : release ∈ present
    · rw [attempts_cons_of_present there] at steady ⊢
      rw [fetchEach, if_pos (by simpa using there), ih c _ steady]
      simp [there]
    · rw [attempts_cons_of_missing there] at steady ⊢
      have ⟨first, others⟩ := List.forall_mem_cons.1 steady
      rw [fetchEach, if_neg (by simpa using there)]
      split
      · rename_i outcome
        rw [ih _ _ others]
        simp [Site.fetched, Site.refused, Site.outcome, outcome, there]
      · rename_i reason outcome
        rw [ih _ _ others]
        simp [Site.fetched, Site.refused, Site.outcome, outcome, there]
      · rename_i outcome
        exact absurd outcome first

/-- A download is stopped exactly by an attempt that fails in an unforeseen way. -/
theorem fetchEach_error_iff {requested : List String} {made : Nat} (c : σ) (s : DownloadSummary) :
    (fetchEach site present made requested c s).1 = .error .siteFailure ↔
      ¬site.IsSteadyAt (attempts present made requested) := by
  constructor
  · intro stopped steady
    rw [fetchEach_eq c s steady] at stopped
    cases stopped
  · intro unsteady
    induction requested generalizing made c s with
    | nil => exact absurd (by simp [Site.IsSteadyAt, attempts]) unsteady
    | cons release rest ih =>
      by_cases there : release ∈ present
      · rw [attempts_cons_of_present there] at unsteady
        rw [fetchEach, if_pos (by simpa using there)]
        exact ih c _ unsteady
      · rw [attempts_cons_of_missing there, Site.IsSteadyAt, List.forall_mem_cons,
          not_and_or] at unsteady
        rw [fetchEach, if_neg (by simpa using there)]
        -- An attempt that is no crash leaves the crash to the requests after it.
        split
        · rename_i outcome
          exact ih _ _ (unsteady.resolve_left fun first => first (by simp [Site.outcome, outcome]))
        · rename_i reason outcome
          exact ih _ _ (unsteady.resolve_left fun first => first (by simp [Site.outcome, outcome]))
        · rfl

/-- A download comes to the same at sites where its attempts do. -/
theorem fetchEach_congr {other : Site} {requested : List String} {made : Nat} (c : σ)
    (s : DownloadSummary)
    (alike : ∀ attempt ∈ attempts present made requested, other.outcome attempt =
    site.outcome attempt) :
    fetchEach other present made requested c s = fetchEach site present made requested c s := by
  induction requested generalizing made c s with
  | nil => rfl
  | cons release rest ih =>
    by_cases there : release ∈ present
    · rw [attempts_cons_of_present there] at alike
      simp only [fetchEach, List.contains_eq_mem, there, decide_true, if_true, ih _ _ alike]
    · rw [attempts_cons_of_missing there] at alike
      have ⟨first, others⟩ := List.forall_mem_cons.1 alike
      have same : other.fetch made release = site.fetch made release := first
      simp only [fetchEach, List.contains_eq_mem, there, decide_false, Bool.false_eq_true, if_false,
        same, ih _ _ others]

end BinaryStore

namespace Cache

open BinaryStore (fetchEach fetchEach_eq fetchEach_error_iff fetchEach_congr)

variable {site : Site} {present : List String}

/-! ## Downloads -/

/-- A download makes exactly these attempts: it comes to the same wherever they do, whatever other
attempts would come to, and it is stopped exactly if one of them fails in an unforeseen way. -/
structure Makes (c : Cache) (declared : List String) (tries : List (String × Nat)) : Prop where
  only : ∀ site other : Site, (∀ attempt ∈ tries, other.outcome attempt = site.outcome attempt) →
    BinaryStore.download other (some declared) c = BinaryStore.download site (some declared) c
  each : ∀ site : Site,
    (BinaryStore.download site (some declared) c).1 = .error (.fault .siteFailure) ↔
      ¬site.IsSteadyAt tries

/-- The releases that are requested, given what was declared. -/
def Requests (declared : List String) (requested : List Release) : Prop :=
  List.Forall₂ (fun s r => Release.parse s = .ok r) declared requested

variable {c : Cache} {declared : List String} {requested : List Release}

theorem Requests.wanted_eq (h : Requests declared requested) (site : Site) :
    site.wanted (some declared) = .ok (requested.map Release.render) := by
  refine mapM_eq_ok.2 (List.forall₂_map_right_iff.2 (h.imp fun s r read => ?_))
  rw [read]
  rfl

/-- **A download of pinned releases** goes through their texts. -/
theorem download_eq (pinned : Requests declared requested) (listed : c.installed = .ok present)
    (site : Site) :
    BinaryStore.download site (some declared) c =
      (Stop.lift (fetchEach site present 0 (requested.map Release.render) c {}).1,
        (fetchEach site present 0 (requested.map Release.render) c {}).2) := by
  have listing : BinaryStore.installed c = .ok present := listed
  rw [BinaryStore.download, pinned.wanted_eq site]
  dsimp only
  rw [listing]

theorem makes_attempts (pinned : Requests declared requested) (listed : c.installed = .ok present) :
    c.Makes declared (attempts present 0 (requested.map Release.render)) := by
  refine ⟨fun site other alike => ?_, fun site => ?_⟩
  · rw [download_eq pinned listed, download_eq pinned listed, fetchEach_congr c _ alike]
  · rw [download_eq pinned listed, ← fetchEach_error_iff c {}]
    cases (fetchEach site present 0 (requested.map Release.render) c {}).1 <;>
      simp [Stop.lift, Except.mapError]

/-! ## Places in the summary -/

/-- The summary of a download that goes to its end. -/
def summaryOf (site : Site) (present requested : List String) : DownloadSummary where
  installed := site.fetched (attempts present 0 requested)
  skipped := requested.filter present.contains
  failed := .ofList (site.refused (attempts present 0 requested))

theorem map_fst_attempts (present : List String) (made : Nat) (requested : List String) :
    (attempts present made requested).map Prod.fst = requested.filter fun release =>
      !present.contains release :=
  List.zipIdx_map_fst ..

/-- A release is attempted for each request, if it was not present. -/
theorem count_attempts (present : List String) (made : Nat) (requested : List String)
    (release : String) :
    ((attempts present made requested).map Prod.fst).count release =
      if release ∈ present then 0 else requested.count release := by
  rw [map_fst_attempts]
  split
  · rename_i there
    exact List.count_eq_zero.2 fun mem => by simpa [there] using (List.mem_filter.1 mem).2
  · rename_i missing
    exact List.count_filter (by simpa using missing)

/-- The places of a release: one for each request if it was present, else one for each attempt that
fetches it and one for all attempts that do not. -/
theorem places_summaryOf (site : Site) (present requested : List String) (release : String) :
    (summaryOf site present requested).places release =
      (site.fetched (attempts present 0 requested)).count release +
        (if release ∈ present then requested.count release else 0) +
        if (Assoc.names (site.refused (attempts present 0 requested))).count release = 0 then 0
          else 1 := by
  have skipped : (summaryOf site present requested).skipped.count release =
      if release ∈ present then requested.count release else 0 := by
    rw [summaryOf]
    split
    · rename_i there
      exact List.count_filter (by simpa using there)
    · rename_i missing
      exact List.count_eq_zero.2 fun mem => missing (by simpa using (List.mem_filter.1 mem).2)
  have failed : (Assoc.names (summaryOf site present requested).failed.entries).count release =
      if (Assoc.names (site.refused (attempts present 0 requested))).count release = 0 then 0
        else 1 := by
    have mem : release ∈ Assoc.names (summaryOf site present requested).failed.entries ↔
        release ∈ Assoc.names (site.refused (attempts present 0 requested)) := by
      rw [summaryOf, OrderedMap.ofList, OrderedMap.mem_names_foldl_insert]
      simp [OrderedMap.empty, Assoc.names]
    simp only [(OrderedMap.nodup _).count, List.count_eq_zero, mem, ite_not]
  rw [DownloadSummary.places, skipped, failed]
  rfl

/-- How a download accounts for the releases that it is asked for, when some are present. -/
structure Accounts (present requested : List String) (summary : DownloadSummary)
    (tries : List (String × Nat)) : Prop where
  /-- A release is attempted for each request, if it was not present. -/
  attempted : ∀ release,
    (tries.map Prod.fst).count release = if release ∈ present then 0 else requested.count release
  /-- What is requested has a place, and nothing else has. -/
  mentioned : ∀ release, 0 < summary.places release ↔ release ∈ requested
  /-- A release has one place exactly if it is requested once, or if all attempts to fetch it
  fail. -/
  once : ∀ release ∈ requested, summary.places release = 1 ↔
    requested.count release = 1 ∨ release ∉ present ∧ release ∉ summary.installed
  /-- What was present is skipped and has no other place. -/
  skipped : ∀ release ∈ requested, release ∈ present →
    release ∈ summary.skipped ∧ summary.skipped.count release = summary.places release

theorem accounts_summaryOf {requested : List String}
    (steady : site.IsSteadyAt (attempts present 0 requested)) :
    Accounts present requested (summaryOf site present requested)
      (attempts present 0 requested) := by
  have told (release : String) := Site.count_fetched steady release
  simp only [count_attempts] at told
  refine ⟨count_attempts present 0 requested, fun release => ?_, fun release asked => ?_,
    fun release asked there => ?_⟩
  · have counts := told release
    have asked : release ∈ requested ↔ 0 < requested.count release := List.count_pos_iff.symm
    rw [places_summaryOf, asked]
    by_cases there : release ∈ present
    · simp only [there, if_true] at counts ⊢
      split <;> omega
    · simp only [there, if_false] at counts ⊢
      split <;> omega
  · have counts := told release
    have some_request : 0 < requested.count release := List.count_pos_iff.2 asked
    have installed : release ∉ (summaryOf site present requested).installed ↔
        (site.fetched (attempts present 0 requested)).count release = 0 := List.count_eq_zero.symm
    rw [places_summaryOf, installed]
    by_cases there : release ∈ present
    · simp only [there, if_true, not_true, false_and, or_false] at counts ⊢
      split <;> omega
    · simp only [there, if_false, not_false_eq_true, true_and] at counts ⊢
      split <;> omega
  · have counts := told release
    rw [if_pos there] at counts
    have all : (summaryOf site present requested).skipped.count release = requested.count release :=
      List.count_filter (by simpa using there)
    refine ⟨List.mem_filter.2 ⟨asked, by simpa using there⟩, ?_⟩
    rw [places_summaryOf, all, if_pos there, if_pos (by omega)]
    omega

theorem mem_of_mem_fetched {requested : List String} {release : String}
    (h : release ∈ site.fetched (attempts present 0 requested)) : release ∈ requested := by
  have tried : release ∈ (attempts present 0 requested).map Prod.fst := by
    obtain ⟨attempt, mem, rfl⟩ := List.mem_map.1 h
    exact List.mem_map_of_mem (List.mem_of_mem_filter mem)
  rw [map_fst_attempts] at tried
  exact List.mem_of_mem_filter tried

theorem download_eq_ok (pinned : Requests declared requested) (listed : c.installed = .ok present)
    (steady : site.IsSteadyAt (attempts present 0 (requested.map Release.render))) :
    BinaryStore.download site (some declared) c =
      (.ok (summaryOf site present (requested.map Release.render)),
        (summaryOf site present (requested.map Release.render)).installed.foldl add c) := by
  rw [download_eq pinned listed, fetchEach_eq c {} steady]
  rfl

end Cache

namespace Resolver

open Cache

/-- **A download accounts for the releases that it is asked for.** A release that is at hand is not
attempted, and another one is attempted once for each request for it, so once if it is requested
once. The releases that are requested are those with a place in the summary, and a release has
exactly one place if it is requested once; requested again it has one only if it was not at hand and
every attempt to fetch it fails. A second download of the same list skips all that the first one
fetched or skipped. -/
theorem download_accounts {declared : List String} {requested : List Release} {c : Cache}
    {present : List String} (pinned : Requests declared requested)
    (listed : c.installed = .ok present) (m : Resolver) (site : Site)
    (steady : ∀ tries, site.IsSteadyAt tries) :
    ∃ summary after tries, m.download site (some declared) c = (.ok summary, after, {}) ∧
      c.Makes declared tries ∧ Accounts present (requested.map Release.render) summary tries ∧
      ∀ (n : Resolver) (again : Site), (∀ tries, again.IsSteadyAt tries) →
        ∃ second later tries', n.download again (some declared) after = (.ok second, later, {}) ∧
          after.Makes declared tries' ∧
          ∀ release ∈ summary.installed ++ summary.skipped,
            release ∈ second.skipped ∧ second.skipped.count release = second.places release ∧
              release ∉ tries'.map Prod.fst := by
  refine ⟨_, _, _, by rw [download, download_eq_ok pinned listed (steady _)],
    makes_attempts pinned listed, accounts_summaryOf (steady _), fun n again steady' => ?_⟩
  have fetched_pinned :
      ∀ release ∈ (summaryOf site present (requested.map Release.render)).installed,
      ∃ r : Release, r.render = release := fun release mem => by
    obtain ⟨r, -, same⟩ := List.mem_map.1 (mem_of_mem_fetched mem)
    exact ⟨r, same⟩
  obtain ⟨later, listed', stays⟩ := exists_installed_foldl_add listed fetched_pinned
  have accounts := accounts_summaryOf (steady' (attempts later 0 (requested.map Release.render)))
  refine ⟨_, _, _, by rw [download, download_eq_ok pinned listed' (steady' _)],
    makes_attempts pinned listed', fun release mem => ?_⟩
  have asked : release ∈ requested.map Release.render := by
    rcases List.mem_append.1 mem with fetched | skipped
    · exact mem_of_mem_fetched fetched
    · exact List.mem_of_mem_filter skipped
  have there : release ∈ later := by
    refine stays release (List.mem_append.2 ((List.mem_append.1 mem).imp_right fun skipped => ?_))
    simpa using (List.mem_filter.1 skipped).2
  have ⟨skipped, all⟩ := accounts.skipped release asked there
  have untried := accounts.attempted release
  rw [if_pos there] at untried
  exact ⟨skipped, all, List.count_eq_zero.1 untried⟩

/-- A cache with one release. -/
def stocked : Cache := ⟨.ofText "solc", ["solc-v0.8.20"]⟩

/-- A site whose first answer is a refusal. -/
def lateSite : Site where
  offered := []
  fetch made _ := if made = 0 then .refused "checksum mismatch" else .fetched

/-- A release at hand, one that is fetched, and one that is refused and then fetched by another
request. -/
theorem download_accounts_lateSite :
    ∃ summary after tries, ({} : Resolver).download lateSite
        (some ["v0.8.20+commit.a1b79de6", "0.4.11", "0.8.19", " 0.4.11"]) stocked =
          (.ok summary, after, {}) ∧
      stocked.Makes ["v0.8.20+commit.a1b79de6", "0.4.11", "0.8.19", " 0.4.11"] tries ∧
      summary.places "0.8.20" = 1 ∧ summary.places "0.8.19" = 1 ∧
        (tries.map Prod.fst).count "0.4.11" = 2 ∧
      ∃ second later, ({} : Resolver).download lateSite
          (some ["v0.8.20+commit.a1b79de6", "0.4.11", "0.8.19", " 0.4.11"]) after =
            (.ok second, later, {}) ∧
        "0.8.20" ∈ second.skipped := by
  have pinned : Requests ["v0.8.20+commit.a1b79de6", "0.4.11", "0.8.19", " 0.4.11"]
      [⟨0, 8, 20⟩, ⟨0, 4, 11⟩, ⟨0, 8, 19⟩, ⟨0, 4, 11⟩] :=
    .cons (by decide) (.cons (by decide) (.cons (by decide) (.cons (by decide) .nil)))
  have listed : stocked.installed = .ok ["0.8.20"] := by decide +kernel
  have steady : ∀ tries, lateSite.IsSteadyAt tries := by
    intro tries attempt _
    unfold lateSite Site.outcome
    dsimp only
    split <;> decide
  obtain ⟨summary, after, tries, done, makes, accounts, again⟩ :=
    download_accounts pinned listed {} lateSite steady
  obtain ⟨second, later, tries', done', -, skips⟩ := again {} lateSite steady
  refine ⟨summary, after, tries, done, makes, ?_, ?_, ?_, second, later, done', ?_⟩
  · exact (accounts.once "0.8.20" (by decide)).2 (.inl (by decide))
  · exact (accounts.once "0.8.19" (by decide)).2 (.inl (by decide))
  · exact accounts.attempted "0.4.11"
  · have there := (accounts.skipped "0.8.20" (by decide) (by decide)).1
    exact (skips "0.8.20" (List.mem_append_right _ there)).1

/-- An empty cache. -/
def bare : Cache := ⟨.ofText "solc", []⟩

/-- A site that has every release. -/
def fullSite : Site where
  offered := []
  fetch _ _ := .fetched

/-- **A release that is asked for in two spellings is fetched twice**, and has two places in the
summary. -/
theorem download_fetches_twice :
    bare.Makes ["0.8.20", "v0.8.20+commit.a1b79de6"] [("0.8.20", 0), ("0.8.20", 1)] ∧
      ({} : Resolver).download fullSite (some ["0.8.20", "v0.8.20+commit.a1b79de6"]) bare =
        (.ok { installed := ["0.8.20", "0.8.20"] }, bare.add "0.8.20", {}) ∧
      ({ installed := ["0.8.20", "0.8.20"] } : DownloadSummary).places "0.8.20" = 2 := by
  have pinned : Requests ["0.8.20", "v0.8.20+commit.a1b79de6"] [⟨0, 8, 20⟩, ⟨0, 8, 20⟩] :=
    .cons (by decide) (.cons (by decide) .nil)
  have listed : bare.installed = .ok [] := by decide +kernel
  have steady : fullSite.IsSteadyAt (attempts [] 0 ["0.8.20", "0.8.20"]) := by
    intro attempt _ stopped
    cases stopped
  refine ⟨makes_attempts pinned listed, ?_, by decide⟩
  rw [download, download_eq_ok pinned listed steady]
  rfl

end Resolver

end SelectorCatalog
