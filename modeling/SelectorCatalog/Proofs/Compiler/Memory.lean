import SelectorCatalog.Proofs.Compiler.Downloads

/-!
# The memory of a resolver does not show

A resolver remembers the binaries that it found. `ResolverEvent` is what can happen to it and to the
store that it works on: a release is resolved, releases are downloaded, or another program changes
the store. Nothing is known of the store: where it finds a binary may depend on all that it holds,
and a download may move every binary.

What a finished download moved does not matter, because the memory is empty after it. Where the
memory is kept, during a download that was stopped or while another program was at work, what was
found has to stay in its place (`Resolver.KeepsPaths`). Then all that is remembered is what the
store finds now (`Resolver.isCurrent_play`), so a resolver answers as one without memory would
(`Resolver.resolve_play`). A cache that only grows keeps all its paths
(`Resolver.OnlyAdds.keepsPaths`).
-/

set_option autoImplicit false

namespace SelectorCatalog

/-! ## What is found -/

namespace BinaryStore

variable {σ : Type} [BinaryStore σ]

/-- What is found in a store is found in the same place in another one. -/
def Keeps (s after : σ) : Prop :=
  ∀ release binary, find s release = .ok binary → find after release = .ok binary

end BinaryStore

namespace Cache

/-- A cache that grows keeps what is found. -/
theorem GrowsTo.keeps {c after : Cache} (grows : c.GrowsTo after) : BinaryStore.Keeps c after := by
  intro r binary found
  have here : (c.find r).mapError Stop.failure = .ok binary := found
  change (after.find r).mapError Stop.failure = .ok binary
  unfold Cache.find at here ⊢
  split at here
  · cases here
  split at here
  · rename_i recent there
    have kept : after.holds r.render = true := by
      simp only [holds, List.contains_eq_mem, decide_eq_true_eq] at there ⊢
      exact grows.names _ there
    rw [if_neg recent, if_pos kept, binaryPath, grows.directory]
    exact here
  · cases here

theorem growsTo_fetchEach (site : Site) (present requested : List String) (made : Nat) (c : Cache)
    (s : DownloadSummary) :
    c.GrowsTo (BinaryStore.fetchEach site present made requested c s).2 := by
  induction requested generalizing made c s with
  | nil => exact .refl c
  | cons release rest ih =>
    rw [BinaryStore.fetchEach]
    split
    · exact ih ..
    split
    · exact (growsTo_add c release).trans (ih ..)
    · exact ih ..
    · exact .refl c

/-- A download only adds to the cache, whether it goes to its end or not. -/
theorem growsTo_download (site : Site) (asked : Option (List String)) (c : Cache) :
    c.GrowsTo (BinaryStore.download site asked c).2 := by
  unfold BinaryStore.download
  split
  · exact .refl c
  split
  · exact .refl c
  · exact growsTo_fetchEach ..

end Cache

/-! ## What is remembered -/

namespace Resolver

variable {σ : Type} [BinaryStore σ] {m : Resolver} {s : σ}

/-- What is remembered is what the store finds. -/
def IsCurrent (m : Resolver) (s : σ) : Prop := ∀ e ∈ m.found, BinaryStore.find s e.1 = .ok e.2

theorem isCurrent_empty (s : σ) : ({} : Resolver).IsCurrent s := by
  simp [IsCurrent]

theorem IsCurrent.of_keeps (current : m.IsCurrent s) {after : σ}
    (keeps : BinaryStore.Keeps s after) :
    m.IsCurrent after := fun e mem => keeps _ _ (current e mem)

theorem IsCurrent.find_eq (current : m.IsCurrent s) {r : Release} {binary : Path}
    (remembered : m.remembered? r = some binary) : BinaryStore.find s r = .ok binary := by
  obtain ⟨e, there, rfl⟩ := Option.map_eq_some_iff.1 remembered
  have same : e.1 = r := by simpa using List.find?_some there
  exact same ▸ current e (List.mem_of_find?_eq_some there)

/-- **A current memory does not show**: the answer is what the store alone gives. -/
theorem IsCurrent.resolve_eq (current : m.IsCurrent s) (declared : Option String) :
    (m.resolve s declared).1 = BinaryStore.resolve s declared := by
  unfold resolve BinaryStore.resolve
  cases releaseOf declared with
  | error stop => rfl
  | ok r =>
    rw [ok_bind]
    dsimp only
    split
    · rename_i binary remembered
      exact (current.find_eq remembered).symm
    · cases BinaryStore.find s r <;> rfl

/-- What is found is remembered, and a miss is not. -/
theorem IsCurrent.resolve (current : m.IsCurrent s) (declared : Option String) :
    (m.resolve s declared).2.IsCurrent s := by
  unfold Resolver.resolve
  split
  · exact current
  split
  · exact current
  split
  · rename_i r _ _ binary found
    intro e mem
    rcases List.mem_append.1 mem with old | new
    · exact current e old
    · rw [List.mem_singleton.1 new]
      exact found
  · exact current

theorem resolve_error {declared : Option String} {stop : Stop CompileFailure}
    (missed : (m.resolve s declared).1 = .error stop) : (m.resolve s declared).2 = m := by
  unfold Resolver.resolve at missed ⊢
  cases read : releaseOf declared with
  | error _ => rfl
  | ok r =>
    simp only [read] at missed ⊢
    cases known : m.remembered? r with
    | some _ => rfl
    | none =>
      simp only [known] at missed ⊢
      cases found : BinaryStore.find s r with
      | error _ => rfl
      | ok binary =>
        rw [found] at missed
        cases missed

/-- **A download that goes to its end leaves nothing in the memory**, so it does not matter what it
did to the store. One that is stopped leaves the memory, and so has to keep what was found. -/
theorem IsCurrent.download (current : m.IsCurrent s) (site : Site) (asked : Option (List String))
    (keeps : ∀ stop after, BinaryStore.download site asked s = (.error stop, after) →
      BinaryStore.Keeps s after) :
    (m.download site asked s).2.2.IsCurrent (m.download site asked s).2.1 := by
  unfold Resolver.download
  split
  · exact isCurrent_empty _
  · rename_i stop after stopped
    exact current.of_keeps (keeps stop after stopped)

end Resolver

/-! ## Whatever happens -/

/-- What can happen to a resolver and to the store that it works on. -/
inductive ResolverEvent (σ : Type) where
  | resolve (declared : Option String)
  | download (site : Site) (asked : Option (List String))
  /-- Another program changes the store. -/
  | elsewhere (change : σ → σ)

namespace ResolverEvent

variable {σ : Type} [BinaryStore σ]

/-- The resolver and the store after an event. -/
def apply : Resolver × σ → ResolverEvent σ → Resolver × σ
  | (m, s), resolve declared => ((m.resolve s declared).2, s)
  | (m, s), download site asked => ((m.download site asked s).2.2, (m.download site asked s).2.1)
  | (m, s), elsewhere change => (m, change s)

/-- An event keeps what the store finds, unless it is a download that goes to its end: of such a
download nothing is asked. -/
def KeepsPaths (s : σ) : ResolverEvent σ → Prop
  | resolve _ => True
  | download site asked => ∀ stop after, BinaryStore.download site asked s = (.error stop, after) →
      BinaryStore.Keeps s after
  | elsewhere change => BinaryStore.Keeps s (change s)

theorem isCurrent_apply {p : Resolver × σ} (current : p.1.IsCurrent p.2) {e : ResolverEvent σ}
    (keeps : e.KeepsPaths p.2) : (apply p e).1.IsCurrent (apply p e).2 := by
  cases e with
  | resolve declared => exact current.resolve declared
  | download site asked => exact current.download site asked keeps
  | elsewhere change => exact current.of_keeps keeps

end ResolverEvent

namespace Resolver

section Runs

variable {σ : Type} [BinaryStore σ]

/-- A resolver and its store after a series of events. -/
def playFrom (p : Resolver × σ) (events : List (ResolverEvent σ)) : Resolver × σ :=
  events.foldl ResolverEvent.apply p

/-- A new resolver and a store after a series of events. -/
def play (s : σ) (events : List (ResolverEvent σ)) : Resolver × σ := playFrom ({}, s) events

/-- Each of a series of events keeps what the store finds when it happens, finished downloads
apart. -/
def KeepsPaths : Resolver × σ → List (ResolverEvent σ) → Prop
  | _, [] => True
  | p, e :: rest => e.KeepsPaths p.2 ∧ KeepsPaths (e.apply p) rest

theorem isCurrent_playFrom {p : Resolver × σ} (current : p.1.IsCurrent p.2)
    {events : List (ResolverEvent σ)} (keeps : KeepsPaths p events) :
    (playFrom p events).1.IsCurrent (playFrom p events).2 := by
  induction events generalizing p with
  | nil => exact current
  | cons e rest ih => exact ih (ResolverEvent.isCurrent_apply current keeps.1) keeps.2

theorem isCurrent_play {s : σ} {events : List (ResolverEvent σ)}
    (keeps : KeepsPaths ({}, s) events) :
    (play s events).1.IsCurrent (play s events).2 :=
  isCurrent_playFrom (isCurrent_empty s) keeps

end Runs

/-- Other programs only add to a cache. -/
def OnlyAdds (events : List (ResolverEvent Cache)) : Prop :=
  ∀ change, .elsewhere change ∈ events → ∀ c : Cache, c.GrowsTo (change c)

/-- **A cache that only grows keeps all its paths**, whatever is resolved and downloaded. -/
theorem OnlyAdds.keepsPaths {events : List (ResolverEvent Cache)} (adds : OnlyAdds events)
    (p : Resolver × Cache) : KeepsPaths p events := by
  induction events generalizing p with
  | nil => trivial
  | cons e rest ih =>
    refine ⟨?_, ih (fun change mem => adds change (List.mem_cons_of_mem e mem)) _⟩
    cases e with
    | resolve declared => trivial
    | download site asked =>
      intro stop after stopped
      have grows := Cache.growsTo_download site asked p.2
      rw [stopped] at grows
      exact grows.keeps
    | elsewhere change => exact (adds change List.mem_cons_self p.2).keeps

/-- **The memory of a resolver does not show.** Take any store of binaries, wherever it finds them,
and any releases that are resolved and downloaded. If what is found stays in its place while no
download goes to its end, a release is resolved as a new resolver would resolve it then, and as the
store alone does. What is remembered afterwards is what the store finds, and nothing is remembered
when nothing was found. -/
theorem resolve_play {σ : Type} [BinaryStore σ] {s : σ} {events : List (ResolverEvent σ)}
    (keeps : KeepsPaths ({}, s) events) (declared : Option String) :
    ((play s events).1.resolve (play s events).2 declared).1 =
        (({} : Resolver).resolve (play s events).2 declared).1 ∧
      ((play s events).1.resolve (play s events).2 declared).1 =
        BinaryStore.resolve (play s events).2 declared ∧
      (∀ e ∈ ((play s events).1.resolve (play s events).2 declared).2.found,
        BinaryStore.find (play s events).2 e.1 = .ok e.2) ∧
      ∀ stop, ((play s events).1.resolve (play s events).2 declared).1 = .error stop →
        ((play s events).1.resolve (play s events).2 declared).2 = (play s events).1 := by
  have current := isCurrent_play keeps
  have answer := current.resolve_eq declared
  exact ⟨answer.trans ((isCurrent_empty _).resolve_eq declared).symm, answer,
    current.resolve declared, fun stop => resolve_error⟩

/-- A site that fails at its second attempt. -/
def failingSite : Site where
  offered := []
  fetch made _ := if made = 0 then .fetched else .crashed

/-- A release is missed, fetched and found; then a download is stopped, and another program adds a
binary. -/
def missThenHit : List (ResolverEvent Cache) :=
  [.resolve (some "v0.8.20+commit.a1b79de6"), .download fullSite (some ["0.8.20"]),
    .resolve (some "0.8.20"), .download failingSite (some ["0.8.18", "0.8.17"]),
    .elsewhere fun c => { c with names := c.names ++ ["solc-v0.8.19"] }]

/-- What was missed at first is remembered at the end, and what came in since is found. -/
theorem resolve_play_missThenHit :
    (({} : Resolver).resolve bare (some "v0.8.20+commit.a1b79de6")).1 =
        .error (.failure (.notInstalled ⟨0, 8, 20⟩)) ∧
      (play bare missThenHit).1.found = [(⟨0, 8, 20⟩, .ofText "solc/solc-v0.8.20")] ∧
      (play bare missThenHit).2.names = ["solc-v0.8.20", "solc-v0.8.18", "solc-v0.8.19"] ∧
      ∀ declared, ((play bare missThenHit).1.resolve (play bare missThenHit).2 declared).1 =
        (({} : Resolver).resolve (play bare missThenHit).2 declared).1 := by
  have adds : OnlyAdds missThenHit := by
    intro change mem c
    simp only [missThenHit, List.mem_cons, reduceCtorEq, ResolverEvent.elsewhere.injEq,
      List.not_mem_nil, or_false, false_or] at mem
    exact mem ▸ ⟨rfl, fun name old => List.mem_append_left _ old⟩
  refine ⟨rfl, by decide +kernel, by decide +kernel, fun declared => ?_⟩
  exact (resolve_play (adds.keepsPaths _) declared).1

/-- Binaries on a shelf that is named for their number, so that all move when one comes in. -/
structure Shelf where
  releases : List String

instance : BinaryStore Shelf where
  find s release :=
    if s.releases.contains release.render then
      .ok ⟨.relative, [toString s.releases.length, release.render]⟩
    else .error (.failure (.notInstalled release))
  installed s := .ok s.releases
  install s release := ⟨release :: s.releases⟩

/-- A binary is found where a finished download has moved it, because nothing is remembered. -/
example :
    let after := play (⟨["0.8.20"]⟩ : Shelf)
      [.resolve (some "0.8.20"), .download fullSite (some ["0.8.19"])]
    (after.1.resolve after.2 (some "0.8.20")).1 = .ok ⟨.relative, ["2", "0.8.20"]⟩ := rfl

end Resolver

end SelectorCatalog
