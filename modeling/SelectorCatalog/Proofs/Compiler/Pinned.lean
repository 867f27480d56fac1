import Mathlib.Data.List.TakeWhile
import SelectorCatalog.Compiler.Cache
import SelectorCatalog.Proofs.Text.Numerals
import SelectorCatalog.Proofs.Text.Trimmed

/-!
# Which versions are pinned

`Release.Pins` says what a pinned version looks like: a `v` or none, three groups of digits with
single points between them, and either nothing more or a tag. Exactly such a version is read, as the
three numbers (`Release.parse_eq_ok_iff`), and everything else is refused as naming no single
release (`Release.refused_iff`). A release is read back from its text (`Release.parse_render`), so
two versions are resolved alike exactly if their numbers are the same (`Release.parse_pinned`).
-/

set_option autoImplicit false

namespace SelectorCatalog

namespace Release

/-! ## Groups of digits -/

/-- A group of digits of whatever script, at least one. -/
structure IsGroup (group : List Char) : Prop where
  filled : group ≠ []
  digits : ∀ c ∈ group, Text.isDecimalDigit c = true

/-- Three groups of digits with single points between them. -/
def dotted (a b c : List Char) : List Char := a ++ '.' :: (b ++ '.' :: c)

theorem takeGroup_append {group rest : List Char}
    (digits : ∀ c ∈ group, Text.isDecimalDigit c = true)
    (ends : ∀ c, rest.head? = some c → Text.isDecimalDigit c = false) :
    takeGroup (group ++ rest) = (group, rest) := by
  rw [takeGroup, List.takeWhile_append_of_pos digits, List.dropWhile_append_of_pos digits]
  cases rest with
  | nil => simp
  | cons c more => simp [ends c rfl]

theorem eq_append_of_takeGroup {s group rest : List Char} (h : takeGroup s = (group, rest)) :
    s = group ++ rest ∧ ∀ c ∈ group, Text.isDecimalDigit c = true := by
  cases h
  exact ⟨List.takeWhile_append_dropWhile.symm, fun c mem => List.mem_takeWhile_imp mem⟩

theorem point_ends {rest : List Char} :
    ∀ c, ('.' :: rest).head? = some c → Text.isDecimalDigit c = false := by
  rintro c ⟨⟩
  decide

/-- **Three groups are found exactly in a text that they make up.** -/
theorem groups?_eq_some_iff {s a b c : List Char} :
    groups? s = some (a, b, c) ↔ (IsGroup a ∧ IsGroup b ∧ IsGroup c) ∧ s = dotted a b c := by
  constructor
  · intro h
    unfold groups? at h
    split at h <;> try contradiction
    rename_i a' s' first
    split at h <;> try contradiction
    rename_i b' s'' second
    split at h <;> try contradiction
    rename_i c' third
    rw [Option.ite_none_left_eq_some] at h
    obtain ⟨filled, ⟨⟩⟩ := h
    simp only [Bool.or_eq_true, List.isEmpty_iff, not_or] at filled
    have ⟨split, a_digits⟩ := eq_append_of_takeGroup first
    have ⟨split', b_digits⟩ := eq_append_of_takeGroup second
    have ⟨split'', c_digits⟩ := eq_append_of_takeGroup third
    refine ⟨⟨⟨filled.1.1, a_digits⟩, ⟨filled.1.2, b_digits⟩, filled.2, c_digits⟩, ?_⟩
    rw [split, split', split'', List.append_nil, dotted]
  · rintro ⟨⟨first, second, third⟩, rfl⟩
    have last : takeGroup (c ++ []) = (c, []) := takeGroup_append third.digits (by simp)
    rw [List.append_nil] at last
    have filled : (a.isEmpty || b.isEmpty || c.isEmpty) = false := by
      simp [first.filled, second.filled, third.filled]
    unfold groups? dotted
    simp only [takeGroup_append first.digits point_ends, takeGroup_append second.digits point_ends,
      last, filled, Bool.false_eq_true, if_false]

/-! ## Marks and tags -/

/-- What may stand before the numbers. -/
def IsMark (mark : List Char) : Prop := mark = [] ∨ mark = ['v'] ∨ mark = ['V']

/-- What may stand after the numbers: nothing, or any text after a plus or a minus. -/
def IsTag (tag : List Char) : Prop := ∀ c, tag.head? = some c → c = '+' ∨ c = '-'

/-- A digit or a point. -/
def IsCoreChar (c : Char) : Prop := Text.isDecimalDigit c = true ∨ c = '.'

theorem IsCoreChar.ne {c other : Char} (h : IsCoreChar c)
    (plain : Text.isDecimalDigit other = false ∧ other ≠ '.') : c ≠ other := by
  rintro rfl
  rcases h with digit | point
  · exact Bool.false_ne_true (plain.1.symm.trans digit)
  · exact plain.2 point

theorem IsCoreChar.not_blank {c : Char} (h : IsCoreChar c) : Text.isBlank c = false := by
  rcases h with digit | rfl
  · exact Text.not_blank_of_isDecimalDigit digit
  · decide

theorem IsCoreChar.not_marksRange {c : Char} (h : IsCoreChar c) : marksRange c = false := by
  simp only [marksRange, h.not_blank, Bool.or_eq_false_iff, beq_eq_false_iff_ne, and_true,
    and_assoc]
  refine ⟨?_, ?_, ?_, ?_, ?_, ?_, ?_, ?_, ?_⟩ <;> exact h.ne (by decide)

theorem isCoreChar_of_mem_dotted {a b c : List Char} (first : IsGroup a) (second : IsGroup b)
    (third : IsGroup c) :
    ∀ x ∈ dotted a b c, IsCoreChar x := by
  intro x mem
  simp only [dotted, List.mem_append, List.mem_cons] at mem
  rcases mem with mem | rfl | mem | rfl | mem
  · exact .inl (first.digits x mem)
  · exact .inr rfl
  · exact .inl (second.digits x mem)
  · exact .inr rfl
  · exact .inl (third.digits x mem)

/-- Mark and tag are taken off what holds neither. -/
theorem untagged_append {mark core tag : List Char} (isMark : IsMark mark) (isTag : IsTag tag)
    (plain : ∀ c ∈ core, IsCoreChar c) : untagged (mark ++ core ++ tag) = core := by
  have cut : (core ++ tag).takeWhile (fun c => c != '+' && c != '-') = core := by
    rw [List.takeWhile_append_of_pos fun c mem => ?_]
    · cases tag with
      | nil => simp
      | cons t more => rcases isTag t rfl with rfl | rfl <;> simp
    · have unmarked : c ≠ '+' ∧ c ≠ '-' :=
        ⟨(plain c mem).ne (by decide), (plain c mem).ne (by decide)⟩
      simp [unmarked]
  rcases isMark with rfl | rfl | rfl
  · -- Neither a number nor a tag opens with the letter that would be taken off.
    have opens : ∀ c rest, core ++ tag = c :: rest → c ≠ 'v' ∧ c ≠ 'V' := by
      intro c rest split
      cases core with
      | nil =>
        have tagged : c = '+' ∨ c = '-' := isTag c (by rw [show tag = c :: rest from split]; rfl)
        rcases tagged with rfl | rfl <;> decide
      | cons d more =>
        obtain ⟨rfl, -⟩ := List.cons.inj split
        have char := plain d List.mem_cons_self
        exact ⟨char.ne (by decide), char.ne (by decide)⟩
    rw [List.nil_append]
    unfold untagged
    cases whole : core ++ tag with
    | nil => rw [whole] at cut; exact cut
    | cons c rest =>
      have ⟨lower, upper⟩ := opens c rest whole
      rw [whole] at cut
      simpa [lower, upper] using cut
  · exact cut
  · exact cut

/-- Every text is a mark, what is left of it without mark and tag, and a tag. -/
theorem exists_marked (s : List Char) :
    ∃ mark tag, IsMark mark ∧ IsTag tag ∧ s = mark ++ untagged s ++ tag := by
  have tagged (body : List Char) : ∃ tag, IsTag tag ∧
      body = body.takeWhile (fun c => c != '+' && c != '-') ++ tag := by
    refine ⟨_, fun c first => ?_, List.takeWhile_append_dropWhile.symm⟩
    have stopped := List.head?_dropWhile_not (fun c => c != '+' && c != '-') body
    rw [first] at stopped
    simpa [Decidable.or_iff_not_imp_left] using stopped
  cases s with
  | nil => exact ⟨[], [], .inl rfl, by simp [IsTag], rfl⟩
  | cons c rest =>
    by_cases mark : c = 'v' ∨ c = 'V'
    · obtain ⟨tag, isTag, split⟩ := tagged rest
      refine ⟨[c], tag, ?_, isTag, ?_⟩
      · rcases mark with rfl | rfl
        · exact .inr (.inl rfl)
        · exact .inr (.inr rfl)
      · have same : untagged (c :: rest) = rest.takeWhile fun c => c != '+' && c != '-' := by
          simp [untagged, mark]
        rw [same, List.append_assoc, ← split, List.singleton_append]
    · obtain ⟨tag, isTag, split⟩ := tagged (c :: rest)
      refine ⟨[], tag, .inl rfl, isTag, ?_⟩
      have same : untagged (c :: rest) = (c :: rest).takeWhile fun c => c != '+' && c != '-' := by
        simp [untagged, mark]
      rw [same, List.nil_append]
      exact split

/-! ## Pinned versions -/

/-- A version is pinned with three groups of digits: blanks around it apart, they stand with single
points between them, perhaps after a `v` and before a tag. -/
structure Pins (declared : String) (a b c : List Char) : Prop where
  major : IsGroup a
  minor : IsGroup b
  patch : IsGroup c
  form : ∃ mark tag, IsMark mark ∧ IsTag tag ∧ (Text.trim declared).toList =
    mark ++ dotted a b c ++ tag

/-- The release that three groups of digits name. -/
def ofGroups (a b c : List Char) : Release := ⟨Text.numberIn a, Text.numberIn b, Text.numberIn c⟩

variable {declared : String} {a b c : List Char}

theorem Pins.untagged_eq (h : Pins declared a b c) :
    untagged (Text.trim declared).toList = dotted a b c := by
  obtain ⟨mark, tag, isMark, isTag, form⟩ := h.form
  rw [form, untagged_append isMark isTag (isCoreChar_of_mem_dotted h.major h.minor h.patch)]

/-- The groups of a pinned version are read off it. -/
theorem Pins.groups?_eq (h : Pins declared a b c) :
    groups? (untagged (Text.trim declared).toList) = some (a, b, c) :=
  groups?_eq_some_iff.2 ⟨⟨h.major, h.minor, h.patch⟩, h.untagged_eq⟩

/-- **A version is pinned exactly if groups are found in it.** -/
theorem pins_iff :
    Pins declared a b c ↔ groups? (untagged (Text.trim declared).toList) = some (a, b, c) := by
  refine ⟨Pins.groups?_eq, fun found => ?_⟩
  obtain ⟨⟨first, second, third⟩, core⟩ := groups?_eq_some_iff.1 found
  obtain ⟨mark, tag, isMark, isTag, form⟩ := exists_marked (Text.trim declared).toList
  exact ⟨first, second, third, mark, tag, isMark, isTag, core ▸ form⟩

/-! ## Reading -/

/-- The steps of reading, one after the other. -/
theorem parse_eq (declared : String) :
    parse declared =
      if (Text.trim declared).isEmpty then .error (.failure .missing)
      else if (untagged (Text.trim declared).toList).any marksRange then
        .error (.failure (.range (Text.trim declared)))
      else match groups? (untagged (Text.trim declared).toList) with
        | none => .error (.failure (.notPinned (Text.trim declared)))
        | some (a, b, c) => Stop.lift do return ⟨← numberOf a, ← numberOf b, ← numberOf c⟩ := by
  unfold parse
  dsimp only
  split
  · rfl
  split
  · rfl
  · cases groups? (untagged (Text.trim declared).toList) <;> rfl

/-- A pinned version is refused by neither test, and the numbers of its groups are read. -/
theorem Pins.parse_eq (h : Pins declared a b c) :
    parse declared = Stop.lift do return ⟨← numberOf a, ← numberOf b, ← numberOf c⟩ := by
  have filled : (Text.trim declared).isEmpty = false := by
    obtain ⟨mark, tag, -, -, form⟩ := h.form
    have some_char : (Text.trim declared).toList ≠ [] := by simp [form, dotted]
    simpa using some_char
  have no_range : (untagged (Text.trim declared).toList).any marksRange = false := by
    rw [h.untagged_eq, List.any_eq_false]
    intro c mem
    simp [(isCoreChar_of_mem_dotted h.major h.minor h.patch c mem).not_marksRange]
  rw [Release.parse_eq, filled, no_range, h.groups?_eq]
  rfl

/-- **What pins no release is refused.** -/
theorem exists_flaw (h : ¬∃ a b c, Pins declared a b c) :
    ∃ flaw, parse declared = .error (.failure flaw) := by
  rw [parse_eq]
  split
  · exact ⟨_, rfl⟩
  split
  · exact ⟨_, rfl⟩
  split
  · exact ⟨_, rfl⟩
  · rename_i a b c found
    exact absurd ⟨a, b, c, pins_iff.2 found⟩ h

theorem IsGroup.numberOf_eq_ok_iff {group : List Char} (h : IsGroup group) {n : Nat} :
    numberOf group = .ok n ↔ group.length ≤ Text.maxDigits ∧ n = Text.numberIn group := by
  unfold numberOf
  dsimp only
  rw [Text.length_filterMap_digitValue? h.digits]
  split
  · rename_i long
    exact ⟨fun e => (by cases e), fun e => absurd e.1 (Nat.not_le.2 long)⟩
  · rename_i few
    rw [Except.ok.injEq, eq_comm]
    exact ⟨fun e => ⟨Nat.not_lt.1 few, e⟩, And.right⟩

/-- The groups of a version have no more digits than are read. -/
def AreShort (a b c : List Char) : Prop :=
  a.length ≤ Text.maxDigits ∧ b.length ≤ Text.maxDigits ∧ c.length ≤ Text.maxDigits

theorem Pins.parse_eq_ok_iff (h : Pins declared a b c) {r : Release} :
    parse declared = .ok r ↔ AreShort a b c ∧ r = ofGroups a b c := by
  rw [h.parse_eq, Stop.lift_eq_ok]
  simp only [bind_eq_ok, h.major.numberOf_eq_ok_iff, h.minor.numberOf_eq_ok_iff,
    h.patch.numberOf_eq_ok_iff]
  constructor
  · rintro ⟨m, ⟨first, rfl⟩, n, ⟨second, rfl⟩, k, ⟨third, rfl⟩, ⟨⟩⟩
    exact ⟨⟨first, second, third⟩, rfl⟩
  · rintro ⟨⟨first, second, third⟩, rfl⟩
    exact ⟨_, ⟨first, rfl⟩, _, ⟨second, rfl⟩, _, ⟨third, rfl⟩, rfl⟩

/-- **A release is read exactly from a version that pins it** with groups of no more digits than are
read. -/
theorem parse_eq_ok_iff {r : Release} :
    parse declared = .ok r ↔
      ∃ a b c, Pins declared a b c ∧ AreShort a b c ∧ r = ofGroups a b c := by
  constructor
  · intro read
    by_cases pinned : ∃ a b c, Pins declared a b c
    · obtain ⟨a, b, c, pins⟩ := pinned
      exact ⟨a, b, c, pins, pins.parse_eq_ok_iff.1 read⟩
    · obtain ⟨flaw, refused⟩ := exists_flaw pinned
      cases read.symm.trans refused
  · rintro ⟨a, b, c, pins, short⟩
    exact pins.parse_eq_ok_iff.2 short

/-- **A version is refused exactly if it pins no release.** -/
theorem refused_iff :
    (∃ flaw, parse declared = .error (.failure flaw)) ↔ ¬∃ a b c, Pins declared a b c := by
  refine ⟨?_, exists_flaw⟩
  rintro ⟨flaw, refused⟩ ⟨a, b, c, pins⟩
  exact Stop.lift_ne_failure _ flaw (pins.parse_eq.symm.trans refused)

/-! ## The text of a release -/

theorem toList_render (r : Release) :
    r.render.toList =
      dotted (Nat.toDigits 10 r.major) (Nat.toDigits 10 r.minor) (Nat.toDigits 10 r.patch) := by
  simp [render, dotted, ← Nat.toList_repr]

theorem isGroup_toDigits (n : Nat) : IsGroup (Nat.toDigits 10 n) :=
  ⟨Nat.toDigits_ne_nil, fun _ mem => Text.isDecimalDigit_of_mem_toDigits mem⟩

theorem pins_render (r : Release) :
    Pins r.render (Nat.toDigits 10 r.major) (Nat.toDigits 10 r.minor)
      (Nat.toDigits 10 r.patch) := by
  have core := isCoreChar_of_mem_dotted (isGroup_toDigits r.major) (isGroup_toDigits r.minor)
    (isGroup_toDigits r.patch)
  have trimmed : Text.trim r.render = r.render := by
    refine Text.trim_eq_self (Text.isTrimmed_of_all fun c mem => ?_)
    rw [toList_render] at mem
    exact (core c mem).not_blank
  refine ⟨isGroup_toDigits _, isGroup_toDigits _, isGroup_toDigits _, [], [], .inl rfl,
    by simp [IsTag], ?_⟩
  rw [trimmed, toList_render, List.nil_append, List.append_nil]

/-- The numbers of a release have no more digits than are read. -/
def IsShort (r : Release) : Prop :=
  AreShort (Nat.toDigits 10 r.major) (Nat.toDigits 10 r.minor) (Nat.toDigits 10 r.patch)

/-- **A release is read back from its text.** -/
theorem parse_render {r : Release} (short : r.IsShort) : parse r.render = .ok r := by
  refine parse_eq_ok_iff.2 ⟨_, _, _, pins_render r, short, ?_⟩
  simp only [ofGroups, Text.numberIn_toDigits]

theorem render_inj {r q : Release} (short : r.IsShort) (short' : q.IsShort)
    (same : r.render = q.render) :
    r = q := by
  have read := parse_render short
  rw [same, parse_render short'] at read
  exact (Except.ok.inj read).symm

/-- What is read can be read again. -/
theorem isShort_of_parse {r : Release} (h : parse declared = .ok r) : r.IsShort := by
  obtain ⟨a, b, c, pins, short, rfl⟩ := parse_eq_ok_iff.1 h
  have positive : 0 < Text.maxDigits := by decide
  exact ⟨Text.length_toDigits_numberIn pins.major.digits positive short.1,
    Text.length_toDigits_numberIn pins.minor.digits positive short.2.1,
    Text.length_toDigits_numberIn pins.patch.digits positive short.2.2⟩

end Release

/-! ## Resolving -/

/-- Binaries of different releases have different paths. -/
theorem Cache.binaryPath_inj {c : Cache} {release other : String}
    (h : c.binaryPath release = c.binaryPath other) :
    release = other := by
  simp only [binaryPath, Path.join_relative, Path.mk.injEq, true_and, List.append_cancel_left_eq,
    List.cons.injEq, and_true, binaryName] at h
  exact String.append_right_inj _ |>.1 h

namespace Resolver

/-- What is remembered is where the binaries are. -/
def Recalls (m : Resolver) (c : Cache) : Prop := ∀ e ∈ m.found, e.2 = c.binaryPath e.1.render

/-- What resolving a release comes to: the path of its binary, or that it is missing. -/
inductive Names (c : Cache) (r : Release) : Except (Stop CompileFailure) Path → Prop
  | found : Names c r (.ok (c.binaryPath r.render))
  | unsupported : Names c r (.error (.failure (.unsupported r)))
  | notInstalled : Names c r (.error (.failure (.notInstalled r)))

theorem names_find (c : Cache) (r : Release) : Names c r (BinaryStore.find c r) := by
  change Names c r ((c.find r).mapError .failure)
  unfold Cache.find
  split
  · exact .unsupported
  split
  · exact .found
  · exact .notInstalled

theorem releaseOf_eq_ok {declared : String} {r : Release} (read : Release.parse declared = .ok r) :
    releaseOf (some declared) = .ok r := by
  have given : declared.isEmpty = false := by
    rw [← Bool.not_eq_true, String.isEmpty_iff]
    rintro rfl
    cases read
  have value : Release.ofDeclared (some declared) = Release.parse declared := by
    simp only [Release.ofDeclared, Release.ofValue, Value.ofText?, Value.isGiven, given,
      Bool.not_false, if_true, Value.asText, Stop.lift, Except.mapError, ok_bind]
  rw [releaseOf, value, read]
  rfl

/-- **Resolving a version names its release**, whether the memory or the cache knows it. -/
theorem names_resolve {m : Resolver} {c : Cache} (recalls : m.Recalls c) {declared : String}
    {r : Release} (read : Release.parse declared = .ok r) :
    Names c r (m.resolve c (some declared)).1 := by
  unfold resolve
  rw [releaseOf_eq_ok read]
  dsimp only
  split
  · rename_i path known
    obtain ⟨e, there, rfl⟩ := Option.map_eq_some_iff.1 known
    have same : e.1 = r := by simpa using List.find?_some there
    rw [recalls e (List.mem_of_find?_eq_some there), same]
    exact .found
  · have names := names_find c r
    split <;> rename_i found <;> rw [found] at names <;> exact names

/-- The release can be told from what resolving it came to. -/
theorem Names.release_eq {c : Cache} {r q : Release} (short : r.IsShort) (short' : q.IsShort)
    {result : Except (Stop CompileFailure) Path} (h : Names c r result) (g : Names c q result) :
    r = q := by
  cases h with
  | found =>
    generalize path : c.binaryPath r.render = binary at g
    cases g
    exact Release.render_inj short short' (Cache.binaryPath_inj path)
  | unsupported => cases g; rfl
  | notInstalled => cases g; rfl

end Resolver

/-! ## Exactly the pinned versions -/

namespace Release

/-- **Exactly the pinned versions are read.** A release is read from a version that pins it with
groups of no more digits than are read, and its numbers are those of the groups; a version that pins
none is refused. What a version is normalized to stays as it is when it is normalized again, and a
resolver finds the same for two versions that are read exactly if their numbers are the same. -/
theorem parse_pinned (declared : String) :
    (∀ r, parse declared = .ok r ↔
      ∃ a b c, Pins declared a b c ∧ AreShort a b c ∧ r = ofGroups a b c) ∧
    ((∃ flaw, parse declared = .error (.failure flaw)) ↔ ¬∃ a b c, Pins declared a b c) ∧
    (∀ text, (parse declared).map render = .ok text → (parse text).map render = .ok text) ∧
    ∀ (other : String) (r q : Release), parse declared = .ok r → parse other = .ok q →
      ((parse declared).map render = (parse other).map render ↔ r = q) ∧
      ∀ (m : Resolver) (c : Cache), m.Recalls c →
        ((m.resolve c (some declared)).1 = (m.resolve c (some other)).1 ↔ r = q) := by
  refine ⟨fun r => parse_eq_ok_iff, refused_iff, ?_, ?_⟩
  · intro text normalized
    cases read : parse declared with
    | error stop =>
      rw [read] at normalized
      cases normalized
    | ok r =>
      rw [read] at normalized
      cases normalized
      rw [parse_render (isShort_of_parse read)]
      rfl
  · intro other r q read read'
    have short := isShort_of_parse read
    have short' := isShort_of_parse read'
    refine ⟨?_, fun m c recalls => ⟨?_, ?_⟩⟩
    · rw [read, read']
      exact ⟨fun same => render_inj short short' (Except.ok.inj same), fun same => same ▸ rfl⟩
    · intro same
      have names := Resolver.names_resolve recalls read
      rw [same] at names
      exact names.release_eq short short' (Resolver.names_resolve recalls read')
    · rintro rfl
      unfold Resolver.resolve
      rw [Resolver.releaseOf_eq_ok read, Resolver.releaseOf_eq_ok read']

/-- A version with a mark and tags, and the same release with other blanks and digits of another
script. -/
theorem parse_pinned_twoSpellings :
    parse "v0.8.20-nightly.2023.5.1+commit.a1b79de6" = .ok ⟨0, 8, 20⟩ ∧
      parse " 0.8.٢٠\n" = .ok ⟨0, 8, 20⟩ ∧
      ∀ (m : Resolver) (c : Cache), m.Recalls c →
        (m.resolve c (some "v0.8.20-nightly.2023.5.1+commit.a1b79de6")).1 =
          (m.resolve c (some " 0.8.٢٠\n")).1 := by
  have tagged : parse "v0.8.20-nightly.2023.5.1+commit.a1b79de6" = .ok ⟨0, 8, 20⟩ := by decide
  have spaced : parse " 0.8.٢٠\n" = .ok ⟨0, 8, 20⟩ := by decide
  exact ⟨tagged, spaced, fun m c recalls =>
    (((parse_pinned _).2.2.2 _ _ _ tagged spaced).2 m c recalls).2 rfl⟩

/-- A blank before the tag, a fourth number or a sign of a range pins nothing. -/
example : (["0.8.20 +a", "0.8.20.1", "^0.8.20", "0.8.x", "vv0.8.20", "0..20"].any fun s =>
    (parse s).isOk) = false := by decide

end Release

end SelectorCatalog
