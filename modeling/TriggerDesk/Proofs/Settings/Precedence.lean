import TriggerDesk.Proofs.Text.Words
import TriggerDesk.Settings.Basic

/-!
# Which setting prevails

Every setting follows one rule (`Prevails`): it is what the command line gives, or else what its
variable reads as, or else its default. The two addresses of the exchange have the default of the
feed mode that prevails, and no setting of the command line is lost or doubled when the line is
applied again (`settings_resolve`). What a variable can be read as is said by the text between its
blanks (`ReadsNatural`, `ReadsFloat`, `ReadsMode`, `SaysYes`).
-/

namespace TriggerDesk

namespace Decimal

variable {bound n : Nat} {text : String} {digits : List Char}

/-- A text is the digits of a number below a bound, perhaps after a plus. -/
structure IsNatural (bound : Nat) (text : String) (n : Nat) : Prop where
  spelled : ∃ digits, (text.toList = digits ∨ text.toList = '+' :: digits) ∧ digits ≠ [] ∧
    (∀ c ∈ digits, c.isDigit = true) ∧ digitsValue digits = n
  lt : n < bound

/-- What stands after a plus, if there is one. -/
def afterPlus : List Char → List Char
  | '+' :: rest => rest
  | chars => chars

/-- A natural number is read from the digits behind a plus, if there are any and nothing else, and
their value is below the bound. -/
theorem readNatural?_eq (bound : Nat) (text : String) :
    readNatural? bound text =
      if (afterPlus text.toList).isEmpty || !(afterPlus text.toList).all Char.isDigit then none
      else if digitsValue (afterPlus text.toList) < bound then
        some (digitsValue (afterPlus text.toList))
      else none :=
  rfl

/-- A text has a plus in front or none. -/
theorem afterPlus_cases (chars : List Char) :
    chars = afterPlus chars ∨ chars = '+' :: afterPlus chars := by
  unfold afterPlus
  split
  · exact .inr rfl
  · exact .inl rfl

/-- A plus is no digit, so only one in front is passed over. -/
theorem afterPlus_eq {chars : List Char} (hdigits : ∀ c ∈ digits, c.isDigit = true)
    (h : chars = digits ∨ chars = '+' :: digits) : afterPlus chars = digits := by
  rcases h with rfl | rfl
  · unfold afterPlus
    split
    · cases hdigits '+' List.mem_cons_self
    · rfl
  · rfl

/-- A text is read as a number exactly when it is its digits, perhaps after a plus, and below the
bound. -/
theorem readNatural?_eq_some : readNatural? bound text = some n ↔ IsNatural bound text n := by
  rw [readNatural?_eq]
  constructor
  · intro h
    obtain ⟨hdigits, h⟩ := Option.ite_none_left_eq_some.1 h
    obtain ⟨hlt, hvalue⟩ := Option.ite_none_right_eq_some.1 h
    rw [Bool.not_eq_true, Bool.or_eq_false_iff, List.isEmpty_eq_false_iff, Bool.not_eq_false',
      List.all_eq_true] at hdigits
    have hvalue := Option.some.inj hvalue
    exact ⟨⟨_, afterPlus_cases text.toList, hdigits.1, hdigits.2, hvalue⟩, hvalue ▸ hlt⟩
  · rintro ⟨⟨digits, hchars, hne, hdigits, hvalue⟩, hlt⟩
    have hread : (digits.isEmpty || !digits.all Char.isDigit) = false := by
      rw [List.all_eq_true.2 hdigits, Bool.not_true, Bool.or_false, List.isEmpty_eq_false_iff]
      exact hne
    rw [afterPlus_eq hdigits hchars, hread, if_neg Bool.false_ne_true, hvalue, if_pos hlt]

end Decimal

namespace CommandLine

/-- The port that a task gives. -/
def Task.metricsPort? : Task → Option Nat
  | .serve port _ _ => port
  | .alert _ | .order _ _ | .session => none

/-- The feed mode that a task gives. -/
def Task.feedMode? : Task → Option Settings.FeedMode
  | .serve _ mode _ => mode
  | .alert _ | .order _ _ | .session => none

/-- The file that a task gives. -/
def Task.recordFile? : Task → Option String
  | .serve _ _ file => file
  | .alert _ | .order _ _ | .session => none

end CommandLine

namespace Settings

open CommandLine Text

variable {environment : Environment} {invocation : Invocation}

/-! ## What a variable reads as -/

/-- A text is a number below a bound, between blanks. -/
def ReadsNatural (bound : Nat) (text : String) (n : Nat) : Prop :=
  ∃ word, IsTrimmed text word ∧ Decimal.IsNatural bound word n

/-- A text is a decimal, between blanks. -/
def ReadsFloat (text : String) (x : Float) : Prop :=
  ∃ word, IsTrimmed text word ∧ Decimal.readFloat? word = some x

/-- A text is a name of a mode in any mixture of cases, between blanks. -/
def ReadsMode (text : String) (mode : FeedMode) : Prop :=
  ∃ word, IsTrimmed text word ∧
    (word.map Char.toLower = mode.name ∨ word.map Char.toLower = mode.optionName)

/-- A text is a yes in any mixture of cases, between blanks. -/
def SaysYes (text : String) : Prop :=
  ∃ word, IsTrimmed text word ∧ word.map Char.toLower ∈ ["1", "true", "yes", "on"]

/-- What is said of the text between the blanks. -/
theorem exists_isTrimmed_iff (text : String) (holds : String → Prop) :
    (∃ word, IsTrimmed text word ∧ holds word) ↔ holds (trim text) := by
  constructor
  · rintro ⟨word, hword, h⟩
    rw [trim_eq_iff.2 hword]
    exact h
  · exact fun h => ⟨_, isTrimmed_trim text, h⟩

/-- Behind its blanks a text is read as a number exactly when it is one between blanks. -/
theorem readNatural?_trim (bound : Nat) (text : String) (n : Nat) :
    Decimal.readNatural? bound (trim text) = some n ↔ ReadsNatural bound text n :=
  Decimal.readNatural?_eq_some.trans
    (exists_isTrimmed_iff text fun word => Decimal.IsNatural bound word n).symm

/-- Behind its blanks a text is read as a decimal exactly when it is one between blanks. -/
theorem readFloat?_trim (text : String) (x : Float) :
    Decimal.readFloat? (trim text) = some x ↔ ReadsFloat text x :=
  (exists_isTrimmed_iff text fun word => Decimal.readFloat? word = some x).symm

/-- No two modes share a name. -/
theorem FeedMode.find?_name (word : String) (mode : FeedMode) :
    (FeedMode.all.find? fun mode => mode.name = word || mode.optionName = word) = some mode ↔
      word = mode.name ∨ word = mode.optionName := by
  constructor
  · intro h
    have hname := List.find?_some h
    simp only [Bool.or_eq_true, decide_eq_true_eq] at hname
    exact hname.imp Eq.symm Eq.symm
  · rintro (rfl | rfl) <;> cases mode <;> rfl

/-- A mode is read exactly from its names, between blanks. -/
theorem ofText?_eq_some (text : String) (mode : FeedMode) :
    FeedMode.ofText? text = some mode ↔ ReadsMode text mode :=
  (FeedMode.find?_name _ mode).trans (exists_isTrimmed_iff text fun word =>
    word.map Char.toLower = mode.name ∨ word.map Char.toLower = mode.optionName).symm

/-- A text is taken for a yes exactly when it says so. -/
theorem isYes_iff {text : String} : isYes text = true ↔ SaysYes text :=
  decide_eq_true_iff.trans (exists_isTrimmed_iff text fun word =>
    word.map Char.toLower ∈ ["1", "true", "yes", "on"]).symm

/-! ## One rule for every setting -/

/-- The rule: what is given on the command line, or else what the variable, if it is set, reads as,
or else the default. -/
inductive Prevails {α : Type} (given : Option α) (reads : String → α → Prop)
    (set : Option String) (default : α) : α → Prop where
  | commandLine {a : α} : given = some a → Prevails given reads set default a
  | environment {a : α} {text : String} : given = none → set = some text → reads text a →
      Prevails given reads set default a
  | default : given = none → (∀ text, set = some text → ∀ a, ¬reads text a) →
      Prevails given reads set default default

section Prevails

variable {α : Type} {reads : String → α → Prop} {read? : String → Option α}

/-- A variable that is read by a function follows the rule. -/
theorem prevails_of_reads (hread : ∀ text a, read? text = some a ↔ reads text a)
    (given : Option α) (set : Option String) (default : α) :
    Prevails given reads set default (given.getD ((set.bind read?).getD default)) := by
  cases given with
  | some a => exact .commandLine rfl
  | none =>
    cases hfound : set.bind read? with
    | some a =>
      obtain ⟨text, htext, ha⟩ := Option.bind_eq_some_iff.1 hfound
      exact .environment rfl htext ((hread text a).1 ha)
    | none =>
      refine .default rfl fun text htext a ha => ?_
      rw [htext, Option.bind_some, (hread text a).2 ha] at hfound
      cases hfound

/-- A variable that only the environment sets follows the rule. -/
theorem prevails_of_unset (hread : ∀ text a, read? text = some a ↔ reads text a)
    (set : Option String) (default : α) :
    Prevails none reads set default ((set.bind read?).getD default) :=
  prevails_of_reads hread none set default

/-- A variable that is taken as it is follows the rule. -/
theorem prevails_of_text (given set : Option String) (default : String) :
    Prevails given (fun text value => text = value) set default
      (given.getD (set.getD default)) := by
  have hread : ∀ text value : String, some text = some value ↔ text = value :=
    fun _ _ => Option.some_inj
  have hrule := prevails_of_reads hread given set default
  rwa [Option.bind_fun_some] at hrule

end Prevails

/-- What every setting comes to. -/
structure Resolves (environment : Environment) (invocation : Invocation) (settings : Settings) :
    Prop where
  listen : Prevails invocation.address (fun text address => text = address) (environment .listen)
    "127.0.0.1:6969" settings.listen
  metricsPort : Prevails invocation.task.metricsPort? (ReadsNatural portBound)
    (environment .metricsPort) 9898 settings.metricsPort
  /-- A variable of blanks names no file. -/
  recordFile : Prevails (invocation.task.recordFile?.map some)
    (fun text file => ¬Blank text.toList ∧ file = some text) (environment .recordFile) none
    settings.recordFile
  feedMode : Prevails invocation.task.feedMode? ReadsMode (environment .feedMode) .mock
    settings.feedMode
  /-- The default is that of the mode that prevails. -/
  streamAddress : Prevails none (fun text address => text = address) (environment .streamAddress)
    settings.feedMode.streamAddress settings.streamAddress
  quoteAddress : Prevails none (fun text address => text = address) (environment .quoteAddress)
    settings.feedMode.quoteAddress settings.quoteAddress
  /-- A limit of zero is none. -/
  readyTimeout : Prevails none
    (fun text limit => ∃ n, ReadsNatural wordBound text n ∧ 0 < n ∧ limit = some n)
    (environment .readyTimeout) none settings.readyTimeout
  mockStart : Prevails none ReadsFloat (environment .mockStart) 100 settings.mockStart
  mockInterval : Prevails none (ReadsNatural wordBound) (environment .mockInterval) 5
    settings.mockInterval
  queueCapacity : Prevails none (ReadsNatural wordBound) (environment .queueCapacity) 1024
    settings.queueCapacity
  retention : Prevails none (ReadsNatural wordBound) (environment .retention) 0 settings.retention
  desktopNotices : Prevails none (fun text shown => SaysYes text ∧ shown = true)
    (environment .desktopNotices) false settings.desktopNotices

/-! ## Both passes -/

/-- What a command line changes. -/
theorem override_eq (settings : Settings) (environment : Environment) (invocation : Invocation) :
    settings.override environment invocation =
      { invocation.task.feedMode?.elim settings (settings.withFeedMode environment) with
        listen := invocation.address.getD settings.listen
        metricsPort := invocation.task.metricsPort?.getD settings.metricsPort
        recordFile := invocation.task.recordFile?.or settings.recordFile } := by
  obtain ⟨address, task⟩ := invocation
  cases task with
  | serve metricsPort feedMode recordFile => cases feedMode <;> rfl
  | alert | order | session => rfl

/-- What a command line gives comes before what is set, and the rest stays. -/
theorem fields_override (settings : Settings) (environment : Environment)
    (invocation : Invocation) :
    let after := settings.override environment invocation
    (after.listen = invocation.address.getD settings.listen ∧
      after.metricsPort = invocation.task.metricsPort?.getD settings.metricsPort ∧
      after.recordFile = invocation.task.recordFile?.or settings.recordFile ∧
      after.feedMode = invocation.task.feedMode?.getD settings.feedMode) ∧
    after.readyTimeout = settings.readyTimeout ∧ after.mockStart = settings.mockStart ∧
      after.mockInterval = settings.mockInterval ∧ after.queueCapacity = settings.queueCapacity ∧
      after.retention = settings.retention ∧ after.desktopNotices = settings.desktopNotices := by
  dsimp only
  rw [override_eq]
  cases invocation.task.feedMode? with
  | none | some mode => exact ⟨⟨rfl, rfl, rfl, rfl⟩, rfl, rfl, rfl, rfl, rfl, rfl⟩

/-- An address that no variable sets is that of the mode that prevails, although the first pass
does not know this mode. -/
theorem addresses_override (environment : Environment) (invocation : Invocation) :
    let settings := (ofEnvironment environment).override environment invocation
    settings.streamAddress =
        (environment .streamAddress).getD settings.feedMode.streamAddress ∧
      settings.quoteAddress = (environment .quoteAddress).getD settings.feedMode.quoteAddress := by
  dsimp only
  rw [override_eq]
  cases invocation.task.feedMode? with
  | none => exact ⟨rfl, rfl⟩
  | some mode =>
    dsimp only [Option.elim, withFeedMode, ofEnvironment]
    constructor
    · cases environment .streamAddress <;> rfl
    · cases environment .quoteAddress <;> rfl

/-- A command line changes nothing more when it is applied again. -/
theorem override_override (settings : Settings) (environment : Environment)
    (invocation : Invocation) :
    (settings.override environment invocation).override environment invocation =
      settings.override environment invocation := by
  have haddress : ∀ {set : Option String} {before after : String},
      (if set.isSome then (if set.isSome then before else after) else after) =
        if set.isSome then before else after := by
    intro set before after
    cases set <;> rfl
  rw [override_eq settings, override_eq]
  cases invocation.task.feedMode? with
  | none =>
    cases invocation.address <;> cases invocation.task.metricsPort? <;>
      cases invocation.task.recordFile? <;> rfl
  | some mode =>
    dsimp only [Option.elim, withFeedMode]
    rw [haddress, haddress]
    cases invocation.address <;> cases invocation.task.metricsPort? <;>
      cases invocation.task.recordFile? <;> rfl

/-- The file of the environment is one whose name is not blank. -/
theorem prevails_recordFile (given set : Option String) :
    Prevails (given.map some) (fun text file => ¬Blank text.toList ∧ file = some text) set none
      (given.or (set.filter (!isBlankText ·))) := by
  have hread : ∀ (text : String) (file : Option String),
      (if isBlankText text then none else some (some text)) = some file ↔
        ¬Blank text.toList ∧ file = some text := by
    intro text file
    rw [Option.ite_none_left_eq_some, isBlankText_iff, Option.some_inj, eq_comm (a := some text)]
  have hvalue : given.or (set.filter (!isBlankText ·)) = (given.map some).getD
      ((set.bind fun text => if isBlankText text then none else some (some text)).getD none) := by
    cases given with
    | some file => rfl
    | none =>
      cases set with
      | none => rfl
      | some text => cases hblank : isBlankText text <;> simp [hblank]
  rw [hvalue]
  exact prevails_of_reads hread (given.map some) set none

/-- The limit of the environment is one that is not zero. -/
theorem prevails_readyTimeout (environment : Environment) :
    Prevails none (fun text limit => ∃ n, ReadsNatural wordBound text n ∧ 0 < n ∧ limit = some n)
      (environment .readyTimeout) none
      ((natural? environment .readyTimeout wordBound).filter (0 < ·)) := by
  have hread : ∀ (text : String) (limit : Option Nat),
      ((Decimal.readNatural? wordBound (trim text)).filter (0 < ·)).map some = some limit ↔
        ∃ n, ReadsNatural wordBound text n ∧ 0 < n ∧ limit = some n := by
    intro text limit
    simp only [Option.map_eq_some_iff, Option.filter_eq_some_iff, readNatural?_trim,
      decide_eq_true_eq, and_assoc, eq_comm (a := limit)]
  have hvalue : (natural? environment .readyTimeout wordBound).filter (0 < ·) =
      ((environment .readyTimeout).bind fun text =>
        ((Decimal.readNatural? wordBound (trim text)).filter (0 < ·)).map some).getD none := by
    unfold natural?
    cases environment .readyTimeout with
    | none => rfl
    | some text =>
      rw [Option.bind_some, Option.bind_some]
      cases (Decimal.readNatural? wordBound (trim text)).filter (0 < ·) <;> rfl
  rw [hvalue]
  exact prevails_of_unset hread (environment .readyTimeout) none

/-- Notices are shown when the variable says yes, and no option has a say in it. -/
theorem prevails_desktopNotices (environment : Environment) :
    Prevails none (fun text shown => SaysYes text ∧ shown = true) (environment .desktopNotices)
      false ((environment .desktopNotices).any isYes) := by
  have hread : ∀ (text : String) (shown : Bool),
      (if isYes text then some true else none) = some shown ↔ SaysYes text ∧ shown = true := by
    intro text shown
    rw [Option.ite_none_right_eq_some, isYes_iff, Option.some_inj, eq_comm (a := true)]
  have hvalue : (environment .desktopNotices).any isYes =
      ((environment .desktopNotices).bind fun text =>
        if isYes text then some true else none).getD false := by
    cases environment .desktopNotices with
    | none => rfl
    | some text => cases hyes : isYes text <;> simp [hyes]
  rw [hvalue]
  exact prevails_of_unset hread (environment .desktopNotices) false

/-- Environment and command line together settle every setting by one rule: the command line comes
before the variable, and the variable before the default. The default addresses are those of the
feed mode that prevails, and the same command line changes nothing when it is applied again. -/
theorem settings_resolve (environment : Environment) (invocation : Invocation) :
    let settings := (ofEnvironment environment).override environment invocation
    Resolves environment invocation settings ∧
      settings.override environment invocation = settings := by
  refine ⟨?_, override_override (ofEnvironment environment) environment invocation⟩
  obtain ⟨⟨hlisten, hport, hfile, hmode⟩, htimeout, hstart, hinterval, hcapacity, hretention,
    hnotices⟩ := fields_override (ofEnvironment environment) environment invocation
  obtain ⟨hstream, hquote⟩ := addresses_override environment invocation
  have hnatural (setting : Variable) (bound default : Nat) :
      Prevails none (ReadsNatural bound) (environment setting) default
        ((natural? environment setting bound).getD default) :=
    prevails_of_unset (readNatural?_trim bound) (environment setting) default
  exact {
    listen := hlisten ▸ prevails_of_text _ _ _
    metricsPort := hport ▸ prevails_of_reads (readNatural?_trim portBound) _ _ _
    recordFile := hfile ▸ prevails_recordFile _ _
    feedMode := hmode ▸ prevails_of_reads ofText?_eq_some _ _ _
    streamAddress := by
      rw [hstream]
      exact prevails_of_text none _ _
    quoteAddress := by
      rw [hquote]
      exact prevails_of_text none _ _
    readyTimeout := htimeout ▸ prevails_readyTimeout environment
    mockStart := hstart ▸ prevails_of_unset readFloat?_trim _ _
    mockInterval := hinterval ▸ hnatural .mockInterval wordBound 5
    queueCapacity := hcapacity ▸ hnatural .queueCapacity wordBound 1024
    retention := hretention ▸ hnatural .retention wordBound 0
    desktopNotices := hnotices ▸ prevails_desktopNotices environment }

end Settings

end TriggerDesk
