import Scorecard.Analysis.Rules
import Scorecard.Proofs.Analysis.OrderedTokens

/-!
# Credentials in a text

A credential probe looks for a name up to case that is given a text in quotes. What it looks for can
be started at many places and come to nothing at most of them: a name that is compared, an empty
text, a quote that is not closed. None of these hides a later one, because the probe starts anew at
each place, and at one place there is only one way to go on: no blank is the sign or a quote, and no
quote is part of the quoted text. So a probe fires if and only if the text holds what it looks for,
anywhere.

Each kind of risk has one probe, so the count of risks is the count of the kinds that the text
holds, however often it holds them.
-/

namespace Scorecard

/-- The characters that stand for a character up to case. Three letters have forms beyond ASCII. -/
def caseForms (letter : Char) : List Char :=
  [letter, letter.toUpper] ++
    if letter = 'i' then ['\u0130', '\u0131'] else if letter = 'k' then ['\u212A']
    else if letter = 's' then ['\u017F'] else []

/-- The name spells the letters up to case. -/
def IsSpelling (letters name : List Char) : Prop :=
  List.Forall₂ (fun letter c => c ∈ caseForms letter) letters name

theorem isSpelling_append {front back name : List Char} :
    IsSpelling (front ++ back) name ↔
      ∃ first second, name = first ++ second ∧ IsSpelling front first ∧ IsSpelling back second := by
  constructor
  · intro spelled
    refine ⟨name.take front.length, name.drop front.length,
      (List.take_append_drop _ _).symm, ?_, ?_⟩
    · exact (List.forall₂_take_append name front back spelled.flip).flip
    · exact (List.forall₂_drop_append name front back spelled.flip).flip
  · rintro ⟨first, second, rfl, spelledFront, spelledBack⟩
    exact List.rel_append spelledFront spelledBack

theorem toLower_eq_iff {letter c : Char} (low : 'a' ≤ letter) (high : letter ≤ 'z') :
    c.toLower = letter ↔ c = letter ∨ c = letter.toUpper := by
  have bounds : 97 ≤ letter.toNat ∧ letter.toNat ≤ 122 := ⟨low, high⟩
  have lowered : ∀ code < 91, 65 ≤ code → (Char.ofNat code).toLower.toNat = code + 32 := by decide
  have raised : ∀ code < 123, 97 ≤ code → (Char.ofNat code).toUpper.toNat = code - 32 := by decide
  have upper := raised letter.toNat (by omega) bounds.1
  rw [Char.ofNat_toNat] at upper
  rw [← Char.toNat_inj, ← @Char.toNat_inj c, ← @Char.toNat_inj c, upper]
  by_cases capital : 65 ≤ c.toNat ∧ c.toNat ≤ 90
  · have lower := lowered c.toNat (by omega) capital.1
    rw [Char.ofNat_toNat] at lower
    omega
  · have kept : c.toLower = c := by
      rw [Char.toLower, dif_neg]
      exact capital
    rw [kept]
    omega

/-- A letter in lower case up to case is one of its forms. -/
theorem isLetterUpToCase_iff {letter c : Char} (low : 'a' ≤ letter) (high : letter ≤ 'z') :
    Step.isLetterUpToCase letter c = true ↔ c ∈ caseForms letter := by
  have code : ∀ other : Char, (c.toNat == other.toNat) = decide (c = other) := by
    intro other
    rw [Bool.beq_eq_decide_eq, decide_eq_decide, Char.toNat_inj]
  have dotted := code '\u0130'
  have dotless := code '\u0131'
  have kelvin := code '\u212A'
  have long := code '\u017F'
  simp only [Char.reduceToNat] at dotted dotless kelvin long
  simp only [Step.isLetterUpToCase, caseForms, dotted, dotless, kelvin, long, List.mem_append,
    List.mem_cons, List.not_mem_nil, or_false, Bool.or_eq_true, Bool.and_eq_true, beq_iff_eq,
    decide_eq_true_eq, toLower_eq_iff low high]
  split_ifs <;> simp_all

namespace Step

theorem spells_caseless {word : String}
    (letters : ∀ letter ∈ word.toList, 'a' ≤ letter ∧ letter ≤ 'z') {steps : List Step}
    {text : List Char} :
    Spells (caseless word ++ steps) text ↔
      ∃ name rest, text = name ++ rest ∧ IsSpelling word.toList name ∧ Spells steps rest := by
  rw [caseless]
  generalize word.toList = word at letters ⊢
  induction word generalizing text with
  | nil => simp [IsSpelling]
  | cons letter word ih =>
      rw [List.forall_mem_cons] at letters
      rw [List.map_cons, List.cons_append, spells_one]
      simp only [ih letters.2, isLetterUpToCase_iff letters.1.1 letters.1.2]
      constructor
      · rintro ⟨c, _, rfl, form, name, rest, rfl, spelled, following⟩
        exact ⟨c :: name, rest, rfl, .cons form spelled, following⟩
      · rintro ⟨_, rest, rfl, spelled, following⟩
        cases spelled with
        | cons form spelled => exact ⟨_, _, rfl, form, _, rest, rfl, spelled, following⟩

@[simp]
theorem definite_caseless {word : String} {steps : List Step} :
    Definite (caseless word ++ steps) ↔ Definite steps := by
  rw [caseless]
  induction word.toList with
  | nil => rfl
  | cons letter word ih => exact ih

end Step

/-- What a text in quotes can be given as. -/
inductive Credential where
  | password
  | interfaceKey
  | secret
  | token
deriving DecidableEq

namespace Credential

/-- The spellings of the name in lower case. -/
def spellings : Credential → List String
  | .password => ["password"]
  | .interfaceKey => ["apikey", "api_key", "api-key"]
  | .secret => ["secret"]
  | .token => ["token"]

/-- The probe that looks for the credential. -/
def probe : Credential → Probe
  | .password => Scorecard.credential "password"
  | .interfaceKey => Scorecard.interfaceKey
  | .secret => Scorecard.credential "secret"
  | .token => Scorecard.credential "token"

end Credential

/-- The text is perhaps blanks, the sign, perhaps blanks, and a text in quotes. -/
def IsGiven (text : List Char) : Prop :=
  ∃ pad gap opening value closing, text = pad ++ '=' :: (gap ++ opening :: (value ++ [closing])) ∧
    (∀ c ∈ pad, isBlank c = true) ∧ (∀ c ∈ gap, isBlank c = true) ∧
    opening ∈ ['\'', '"'] ∧ (value ≠ [] ∧ ∀ c ∈ value, c ∉ ['\'', '"']) ∧ closing ∈ ['\'', '"']

/-- The text is a name of the credential up to case that is given a text in quotes. -/
def Credential.IsGivenIn (credential : Credential) (source : List Char) : Prop :=
  ∃ spelling ∈ credential.spellings, ∃ name given, name ++ given <:+: source ∧
    IsSpelling spelling.toList name ∧ IsGiven given

theorem isQuote_iff {c : Char} : isQuote c = true ↔ c ∈ ['\'', '"'] := by
  simp [isQuote, or_comm]

theorem not_isBlank_of_isQuote {c : Char} (quote : isQuote c = true) : isBlank c = false := by
  rw [isQuote, Bool.or_eq_true, beq_iff_eq, beq_iff_eq] at quote
  rcases quote with rfl | rfl <;> decide

theorem quotedValue_definite : Step.Definite quotedValue := by
  simp only [quotedValue, Step.blanks, Step.char, Step.Definite, Step.MayStart, and_true]
  refine ⟨?_, ?_, ?_⟩
  · intro c blank sign
    rw [beq_iff_eq.mp sign] at blank
    exact absurd blank (by decide)
  · intro c blank quote
    rw [not_isBlank_of_isQuote quote] at blank
    contradiction
  · intro c inside quote
    rw [quote] at inside
    contradiction

theorem spells_quotedValue {text : List Char} : Step.Spells quotedValue text ↔ IsGiven text := by
  simp only [quotedValue, Step.blanks, Step.spells_run, Step.spells_char, Step.spells_one,
    Step.spells_nonemptyRun, Step.spells_nil, IsGiven, Bool.not_eq_true', ← Bool.not_eq_true,
    isQuote_iff]
  constructor
  · rintro ⟨pad, _, rfl, padBlank, _, rfl, gap, _, rfl, gapBlank, opening, _, rfl, opens, value, _,
      rfl, inside, closing, _, rfl, closes, rfl⟩
    exact ⟨pad, gap, opening, value, closing, rfl, padBlank, gapBlank, opens, inside, closes⟩
  · rintro ⟨pad, gap, opening, value, closing, rfl, padBlank, gapBlank, opens, inside, closes⟩
    exact ⟨pad, _, rfl, padBlank, _, rfl, gap, _, rfl, gapBlank, opening, _, rfl, opens, value, _,
      rfl, inside, closing, _, rfl, closes, rfl⟩

theorem Probe.fires_pattern_iff {steps : List Step} (definite : Step.Definite steps)
    (source : List Char) :
    (Probe.pattern [steps]).fires source = true ↔
      ∃ piece, piece <:+: source ∧ Step.Spells steps piece := by
  have only : Pattern.Definite [steps] := by simpa [Pattern.Definite] using definite
  rw [Probe.fires, Pattern.occursIn_iff only]
  simp [Pattern.Spells]

namespace Credential

/-- A credential whose name has one spelling. -/
theorem fires_credential_iff {name : String}
    (letters : ∀ letter ∈ name.toList, 'a' ≤ letter ∧ letter ≤ 'z') (source : List Char) :
    (Scorecard.credential name).fires source = true ↔
      ∃ front given, front ++ given <:+: source ∧ IsSpelling name.toList front ∧ IsGiven given := by
  rw [Scorecard.credential,
    Probe.fires_pattern_iff (Step.definite_caseless.mpr quotedValue_definite)]
  simp only [Step.spells_caseless letters, spells_quotedValue]
  constructor
  · rintro ⟨_, inside, front, given, rfl, spelled, isGiven⟩
    exact ⟨front, given, inside, spelled, isGiven⟩
  · rintro ⟨front, given, inside, spelled, isGiven⟩
    exact ⟨_, inside, front, given, rfl, spelled, isGiven⟩

/-- What may stand between the two words of an interface key. -/
def isKeyMark (c : Char) : Bool :=
  c == '_' || c == '-'

theorem isSpelling_mark_cons (mark : Char) (isMark : isKeyMark mark = true)
    {letters name : List Char} :
    IsSpelling (mark :: letters) name ↔ ∃ rest, name = mark :: rest ∧ IsSpelling letters rest := by
  have forms : ∀ c, c ∈ caseForms mark ↔ c = mark := by
    intro c
    rw [isKeyMark, Bool.or_eq_true, beq_iff_eq, beq_iff_eq] at isMark
    rcases isMark with rfl | rfl <;> simp [caseForms]
  rw [IsSpelling, List.forall₂_cons_left_iff]
  simp only [forms]
  constructor
  · rintro ⟨_, rest, rfl, spelled, rfl⟩
    exact ⟨rest, rfl, spelled⟩
  · rintro ⟨rest, rfl, spelled⟩
    exact ⟨mark, rest, rfl, spelled, rfl⟩

theorem interfaceKey_eq : Scorecard.interfaceKey =
    .pattern [Step.caseless "api" ++ .optional isKeyMark :: (Step.caseless "key" ++ quotedValue)] :=
  rfl

theorem interfaceKey_definite :
    Step.Definite (Step.caseless "api" ++
      .optional isKeyMark :: (Step.caseless "key" ++ quotedValue)) := by
  rw [Step.definite_caseless]
  refine ⟨?_, Step.definite_caseless.mpr quotedValue_definite⟩
  intro c mark starts
  have key : Step.isLetterUpToCase 'k' c = true := starts
  rw [isKeyMark, Bool.or_eq_true, beq_iff_eq, beq_iff_eq] at mark
  rcases mark with rfl | rfl <;> exact absurd key (by decide)

/-- The two words are one after the other, or one of the marks is between them. -/
theorem spells_interfaceKey {text : List Char} :
    Step.Spells (Step.caseless "api" ++
      .optional isKeyMark :: (Step.caseless "key" ++ quotedValue)) text ↔
        ∃ spelling ∈ spellings .interfaceKey, ∃ name given, text = name ++ given ∧
          IsSpelling spelling.toList name ∧ IsGiven given := by
  have api : ∀ letter ∈ "api".toList, 'a' ≤ letter ∧ letter ≤ 'z' := by simp
  have key : ∀ letter ∈ "key".toList, 'a' ≤ letter ∧ letter ≤ 'z' := by simp
  have plain : "apikey".toList = "api".toList ++ "key".toList := by simp
  have low : "api_key".toList = "api".toList ++ '_' :: "key".toList := by simp
  have middle : "api-key".toList = "api".toList ++ '-' :: "key".toList := by simp
  simp only [Step.spells_caseless api, Step.spells_optional, Step.spells_caseless key,
    spells_quotedValue, spellings, List.mem_cons, List.not_mem_nil, or_false, exists_eq_or_imp,
    exists_eq_left, plain, low, middle, isSpelling_append, isSpelling_mark_cons '_' rfl,
    isSpelling_mark_cons '-' rfl]
  constructor
  · rintro ⟨first, _, rfl, firstSpelled, ⟨second, given, rfl, secondSpelled, isGiven⟩ |
      ⟨c, _, rfl, mark, second, given, rfl, secondSpelled, isGiven⟩⟩
    · exact .inl ⟨_, given, (List.append_assoc _ _ _).symm,
        ⟨first, second, rfl, firstSpelled, secondSpelled⟩, isGiven⟩
    · right
      rw [isKeyMark, Bool.or_eq_true, beq_iff_eq, beq_iff_eq] at mark
      rcases mark with rfl | rfl
      · exact .inl ⟨first ++ '_' :: second, given, by simp,
          ⟨first, _, rfl, firstSpelled, second, rfl, secondSpelled⟩, isGiven⟩
      · exact .inr ⟨first ++ '-' :: second, given, by simp,
          ⟨first, _, rfl, firstSpelled, second, rfl, secondSpelled⟩, isGiven⟩
  · rintro (⟨_, given, rfl, ⟨first, second, rfl, firstSpelled, secondSpelled⟩, isGiven⟩ |
      ⟨_, given, rfl, ⟨first, _, rfl, firstSpelled, second, rfl, secondSpelled⟩, isGiven⟩ |
      ⟨_, given, rfl, ⟨first, _, rfl, firstSpelled, second, rfl, secondSpelled⟩, isGiven⟩)
    · exact ⟨first, _, List.append_assoc _ _ _, firstSpelled,
        .inl ⟨second, given, rfl, secondSpelled, isGiven⟩⟩
    · exact ⟨first, '_' :: (second ++ given), by simp, firstSpelled,
        .inr ⟨'_', _, rfl, rfl, second, given, rfl, secondSpelled, isGiven⟩⟩
    · exact ⟨first, '-' :: (second ++ given), by simp, firstSpelled,
        .inr ⟨'-', _, rfl, rfl, second, given, rfl, secondSpelled, isGiven⟩⟩

/-- The probe of a credential fires if and only if the credential is given somewhere in the text. -/
theorem fires_iff (credential : Credential) (source : List Char) :
    credential.probe.fires source = true ↔ credential.IsGivenIn source := by
  cases credential with
  | interfaceKey =>
      rw [probe, interfaceKey_eq, Probe.fires_pattern_iff interfaceKey_definite]
      simp only [spells_interfaceKey, IsGivenIn]
      constructor
      · rintro ⟨_, inside, spelling, mem, name, given, rfl, spelled, isGiven⟩
        exact ⟨spelling, mem, name, given, inside, spelled, isGiven⟩
      · rintro ⟨spelling, mem, name, given, inside, spelled, isGiven⟩
        exact ⟨_, inside, spelling, mem, name, given, rfl, spelled, isGiven⟩
  | _ =>
      rw [probe, fires_credential_iff (by simp)]
      simp [IsGivenIn, spellings]

end Credential

/-- A kind of risky code. -/
inductive Risk where
  /-- A credential that is given in the text. -/
  | credential (kind : Credential)
  /-- The name, perhaps blanks, and an opening parenthesis. -/
  | call (name : String)
  /-- A fixed text. -/
  | text (piece : String)
  /-- Texts in order on one line. -/
  | ordered (tokens : List String)
deriving DecidableEq

namespace Risk

/-- Whether a text holds the risk. -/
def IsIn (risk : Risk) (source : List Char) : Prop :=
  match risk with
  | .credential kind => kind.IsGivenIn source
  | .call name => ∃ pad, (∀ c ∈ pad, isBlank c = true) ∧ name.toList ++ pad ++ ['('] <:+: source
  | .text piece => piece.toList <:+: source
  | .ordered tokens => ∃ line ∈ splitLines source, IsWoven tokens line

/-- The probe that looks for the risk. -/
def probe : Risk → Probe
  | .credential kind => kind.probe
  | .call name => riskyCall name
  | .text piece => .pattern [Step.literal piece]
  | .ordered tokens => .ordered tokens

theorem fires_iff (risk : Risk) (source : List Char) :
    risk.probe.fires source = true ↔ risk.IsIn source := by
  cases risk with
  | credential kind => exact kind.fires_iff source
  | call name =>
      have definite : Step.Definite (Scorecard.call name) := by
        rw [Scorecard.call, Step.definite_literal]
        refine ⟨fun c blank parenthesis => ?_, trivial⟩
        rw [beq_iff_eq.mp parenthesis] at blank
        exact absurd blank (by decide)
      rw [probe, riskyCall, Probe.fires_pattern_iff definite]
      simp only [Scorecard.call, Step.blanks, Step.spells_literal, Step.spells_run,
        Step.spells_char, Step.spells_nil, IsIn]
      constructor
      · rintro ⟨_, inside, _, rfl, pad, _, rfl, blank, _, rfl, rfl⟩
        exact ⟨pad, blank, by simpa using inside⟩
      · rintro ⟨pad, blank, inside⟩
        exact ⟨_, inside, _, List.append_assoc _ _ _, pad, _, rfl, blank, _, rfl, rfl⟩
  | text piece =>
      have definite : Step.Definite (Step.literal piece ++ []) := by
        rw [Step.definite_literal]
        trivial
      rw [probe, ← List.append_nil (Step.literal piece), Probe.fires_pattern_iff definite]
      simp only [Step.spells_literal, Step.spells_nil, IsIn]
      constructor
      · rintro ⟨_, inside, _, rfl, rfl⟩
        simpa using inside
      · intro inside
        exact ⟨piece.toList, inside, [], (List.append_nil _).symm, rfl⟩
  | ordered tokens =>
      simp only [probe, Probe.fires, orderedTokensFire, List.any_eq_true, holdsInOrder_iff, IsIn]

instance (source : List Char) : DecidablePred fun risk : Risk => risk.IsIn source := fun risk =>
  decidable_of_iff _ (risk.fires_iff source)

end Risk

/-- The risks that a family looks for, in the order of their probes. -/
def Family.risks : Family → List Risk
  | .js =>
      [.credential .password, .credential .interfaceKey, .credential .secret, .credential .token,
        .call "eval", .ordered ["SELECT", "FROM", "WHERE", "+"]]
  | .python =>
      [.credential .password, .credential .interfaceKey, .credential .secret, .call "eval",
        .call "exec", .text "pickle.loads"]
  | .cpp => [.call "gets", .call "strcpy", .call "strcat", .call "sprintf"]

theorem Family.risks_nodup (family : Family) : family.risks.Nodup := by
  cases family <;> decide

theorem Family.securityProbes_eq (family : Family) :
    family.rules.securityProbes = family.risks.map Risk.probe := by
  cases family <;> rfl

theorem countFiring_eq_card (family : Family) (source : List Char) :
    countFiring family.rules.securityProbes source =
      (family.risks.toFinset.filter fun risk => risk.IsIn source).card := by
  have distinct := family.risks_nodup
  rw [countFiring, family.securityProbes_eq, List.countP_map, List.countP_eq_length_filter,
    ← List.toFinset_card_of_nodup (distinct.filter _), List.toFinset_filter]
  simp only [Function.comp_apply, Risk.fires_iff]

/-- The first probes of two families fire if and only if the text holds a credential of their kind,
and the count of risks is the count of the kinds of risk that the text holds. -/
theorem securityRisks_eq_card (source : List Char) :
    List.Forall₂ (fun probe credential => probe.fires source = true ↔ credential.IsGivenIn source)
        (Family.js.rules.securityProbes.take 4)
        [Credential.password, Credential.interfaceKey, Credential.secret, Credential.token] ∧
      List.Forall₂ (fun probe credential => probe.fires source = true ↔ credential.IsGivenIn source)
        (Family.python.rules.securityProbes.take 3)
        [Credential.password, Credential.interfaceKey, Credential.secret] ∧
      ∀ family : Family, (family.rules.analyze source).securityRisks =
        (family.risks.toFinset.filter fun risk => risk.IsIn source).card := by
  have each : ∀ credentials : List Credential, List.Forall₂
      (fun probe credential => probe.fires source = true ↔ credential.IsGivenIn source)
      (credentials.map Credential.probe) credentials := by
    intro credentials
    rw [List.forall₂_map_left_iff, List.forall₂_same]
    exact fun credential _ => credential.fires_iff source
  refine ⟨?_, ?_, fun family => congrArg Nat.cast (countFiring_eq_card family source)⟩
  · exact each [.password, .interfaceKey, .secret, .token]
  · exact each [.password, .interfaceKey, .secret]

end Scorecard
