import JoinPipeline.Options.Arguments
import Mathlib.Data.List.Induction
import Mathlib.Data.List.TakeWhile

/-!
# What an argument list sets

An argument is a setting if it is two dashes, a spelling of the option, an equals sign and a value.
The list is read if the value of every setting is a word for a level, blanks around it and the case
of ASCII letters apart; the last setting then counts. Otherwise the first setting with another value
is blamed, and nothing behind it helps. Arguments that are no settings can be put in, left out and
moved at will.
-/

namespace JoinPipeline

namespace Text

theorem trim_eq_of_append {lead word trail : List Char} (hlead : ∀ c ∈ lead, isBlank c = true)
    (htrail : ∀ c ∈ trail, isBlank c = true) (hword : ∀ c ∈ word, isBlank c = false) :
    trim (lead ++ word ++ trail) = word := by
  unfold trim
  rw [List.append_assoc, List.dropWhile_append_of_pos hlead]
  cases word with
  | nil =>
    have hnone : trail.dropWhile isBlank = [] := List.dropWhile_eq_nil_iff.2 htrail
    simp [hnone]
  | cons c word =>
    have hfirst : isBlank c = false := hword c List.mem_cons_self
    have hback : (c :: word).reverse.dropWhile isBlank = (c :: word).reverse := by
      refine List.dropWhile_eq_self_iff.2 fun hpos => ?_
      have hmem := List.getElem_mem hpos
      simpa using hword _ (List.mem_reverse.1 hmem)
    rw [List.cons_append, List.dropWhile_cons_of_neg (by simp [hfirst]), ← List.cons_append,
      List.reverse_append, List.dropWhile_append_of_pos (by simpa using htrail), hback,
      List.reverse_reverse]

/-- What is cut off at the two ends is blank. -/
theorem exists_append_trim (cs : List Char) :
    ∃ lead trail, cs = lead ++ trim cs ++ trail ∧ (∀ c ∈ lead, isBlank c = true) ∧
      ∀ c ∈ trail, isBlank c = true := by
  let rest := cs.dropWhile isBlank
  refine ⟨cs.takeWhile isBlank, (rest.reverse.takeWhile isBlank).reverse, ?_, ?_, ?_⟩
  · have hrest : trim cs ++ (rest.reverse.takeWhile isBlank).reverse = rest := by
      rw [trim, ← List.reverse_append, List.takeWhile_append_dropWhile, List.reverse_reverse]
    rw [List.append_assoc, hrest, List.takeWhile_append_dropWhile]
  · intro c hc
    exact List.mem_takeWhile_imp hc
  · intro c hc
    exact List.mem_takeWhile_imp (List.mem_reverse.1 hc)

/-- No blank is a letter. -/
theorem toLower_of_isBlank {c : Char} (h : isBlank c = true) : c.toLower = c := by
  have hrange : ¬ (c.val ≥ 'A'.val ∧ c.val ≤ 'Z'.val) := by
    simp only [isBlank, blankRanges, List.any_cons, List.any_nil, Bool.or_false, Bool.or_eq_true,
      Bool.and_eq_true, decide_eq_true_eq, Char.toNat] at h
    simp only [ge_iff_le, UInt32.le_iff_toNat_le]
    have hA : 'A'.val.toNat = 65 := rfl
    have hZ : 'Z'.val.toNat = 90 := rfl
    omega
  exact dif_neg hrange

end Text

namespace ChainCheck

open Text (isBlank)

/-- The words for a level. -/
def words : ChainCheck → List String
  | off => ["off"]
  | warning => ["warning", "warn"]
  | error => ["error"]

/-- A text that is a word for the level, apart from blanks around it and the case of ASCII
letters. -/
def IsWritten (level : ChainCheck) (s : String) : Prop :=
  ∃ lead word trail, s.toList = lead ++ word ++ trail ∧ (∀ c ∈ lead, isBlank c = true) ∧
    (∀ c ∈ trail, isBlank c = true) ∧ String.ofList (word.map Char.toLower) ∈ level.words

theorem not_isBlank_of_mem_words {level : ChainCheck} {word : String} (h : word ∈ level.words) :
    ∀ c ∈ word.toList, isBlank c = false := by
  have hall : level.words.all (fun word => word.toList.all fun c => !isBlank c) = true := by
    cases level <;> rfl
  simpa using List.all_eq_true.1 hall word h

theorem parse_eq_ok_iff_normalize (s : String) (level : ChainCheck) :
    parse s = .ok level ↔ normalize s ∈ level.words := by
  unfold parse ofName?
  generalize normalize s = word
  by_cases hwarn : word = "warn"
  · subst hwarn
    cases level <;> simp [words]
  · by_cases hoff : word = "off"
    · subst hoff
      cases level <;> simp [words]
    · by_cases hwarning : word = "warning"
      · subst hwarning
        cases level <;> simp [words]
      · by_cases herror : word = "error"
        · subst herror
          cases level <;> simp [words]
        · cases level <;> simp [words, hwarn, hoff, hwarning, herror]

/-- A text is read as a level exactly if it is written as one. -/
theorem parse_eq_ok_iff (s : String) (level : ChainCheck) :
    parse s = .ok level ↔ level.IsWritten s := by
  rw [parse_eq_ok_iff_normalize]
  constructor
  · intro h
    obtain ⟨lead, trail, hs, hlead, htrail⟩ := Text.exists_append_trim s.toList
    exact ⟨lead, _, trail, hs, hlead, htrail, h⟩
  · rintro ⟨lead, word, trail, hs, hlead, htrail, hword⟩
    have hletters : ∀ c ∈ word, isBlank c = false := by
      intro c hc
      by_contra hblank
      rw [Bool.not_eq_false] at hblank
      have hmem : c ∈ (String.ofList (word.map Char.toLower)).toList := by
        rw [String.toList_ofList, ← Text.toLower_of_isBlank hblank]
        exact List.mem_map_of_mem hc
      rw [not_isBlank_of_mem_words hword c hmem] at hblank
      cases hblank
    rw [normalize, hs, Text.trim_eq_of_append hlead htrail hletters]
    exact hword

theorem parse_eq_error {s : String} {cause : Unknown} (h : parse s = .error cause) :
    cause = ⟨normalize s⟩ := by
  simp only [parse] at h
  split at h
  · cases h
  · split at h
    · cases h
    · cases h
      rfl

end ChainCheck

namespace Options

open ChainCheck (IsWritten)

/-- The argument sets the option, in this spelling, to this value. No spelling has an equals sign in
it, so that the value is all that follows the first one. -/
def Sets (argument spelling value : String) : Prop :=
  spelling ∈ chainCheckSpellings ∧ argument = "--" ++ spelling ++ "=" ++ value

def IsSetting (argument : String) : Prop := ∃ spelling value, Sets argument spelling value

/-- If the argument is a setting, its value is a level. -/
def IsAccepted (argument : String) : Prop :=
  ∀ spelling value, Sets argument spelling value → ∃ level : ChainCheck, level.IsWritten value

/-- The level of the last setting, or a warning if nothing is set. -/
def IsLastLevel (arguments : List String) (level : ChainCheck) : Prop :=
  (level = .warning ∧ ∀ a ∈ arguments, ¬ IsSetting a) ∨
  ∃ before last after spelling value, arguments = before ++ last :: after ∧
    Sets last spelling value ∧ level.IsWritten value ∧ ∀ a ∈ after, ¬ IsSetting a

/-- The first setting whose value is no level has the blamed spelling. -/
def IsFirstRefused (arguments : List String) (error : ArgumentError) : Prop :=
  ∃ before refused after value, arguments = before ++ refused :: after ∧
    (∀ a ∈ before, IsAccepted a) ∧ Sets refused error.spelling value ∧
    (∀ level : ChainCheck, ¬ level.IsWritten value) ∧ error.cause = ⟨ChainCheck.normalize value⟩

section Argument

variable {argument spelling value : String}

theorem equals_notMem_of_mem_spellings (h : spelling ∈ chainCheckSpellings) :
    '=' ∉ spelling.toList := by
  have hall : ∀ spelling ∈ chainCheckSpellings, '=' ∉ spelling.toList := by decide
  exact hall spelling h

theorem setting?_of_sets (h : Sets argument spelling value) :
    setting? argument = some (spelling, value) := by
  obtain ⟨hspelling, hargument⟩ := h
  have htoList : argument.toList = '-' :: '-' :: (spelling.toList ++ '=' :: value.toList) := by
    simp [hargument]
  have hname : ∀ c ∈ spelling.toList, decide (c ≠ '=') = true := by
    intro c hc
    rw [decide_eq_true_iff]
    rintro rfl
    exact equals_notMem_of_mem_spellings hspelling hc
  have htake : (spelling.toList ++ '=' :: value.toList).takeWhile (· ≠ '=') = spelling.toList := by
    rw [List.takeWhile_append_of_pos hname]
    simp
  have hdrop : (spelling.toList ++ '=' :: value.toList).dropWhile (· ≠ '=') =
      '=' :: value.toList := by
    rw [List.dropWhile_append_of_pos hname]
    simp
  simp only [setting?, htoList, htake, hdrop, String.ofList_toList, if_pos hspelling]

theorem sets_of_setting? (h : setting? argument = some (spelling, value)) :
    Sets argument spelling value := by
  simp only [setting?] at h
  split at h
  next body htoList =>
    split at h
    · cases h
    next first rest hdrop =>
      have hfirst := List.head?_dropWhile_not (fun c : Char => decide (c ≠ '=')) body
      simp only [hdrop, List.head?_cons, decide_eq_false_iff_not, not_not] at hfirst
      have hbody : body.takeWhile (· ≠ '=') ++ body.dropWhile (· ≠ '=') = body :=
        List.takeWhile_append_dropWhile
      rw [hdrop, hfirst] at hbody
      split at h
      next hspelling =>
        cases h
        refine ⟨hspelling, String.toList_inj.1 ?_⟩
        rw [htoList]
        simpa using hbody.symm
      · cases h
  · cases h

theorem Sets.value_eq {spelling' value' : String} (h : Sets argument spelling value)
    (h' : Sets argument spelling' value') : value' = value := by
  have hsame := (setting?_of_sets h').symm.trans (setting?_of_sets h)
  simp only [Option.some.injEq, Prod.mk.injEq] at hsame
  exact hsame.2

theorem isAccepted_of_isWritten (h : Sets argument spelling value) {level : ChainCheck}
    (hlevel : level.IsWritten value) : IsAccepted argument := by
  intro spelling' value' h'
  rw [h.value_eq h']
  exact ⟨level, hlevel⟩

theorem isAccepted_of_not_isSetting (h : ¬ IsSetting argument) : IsAccepted argument :=
  fun spelling value hsets => absurd ⟨spelling, value, hsets⟩ h

theorem isSetting_iff : IsSetting argument ↔ (setting? argument).isSome = true := by
  rw [Option.isSome_iff_exists]
  constructor
  · rintro ⟨spelling, value, h⟩
    exact ⟨_, setting?_of_sets h⟩
  · rintro ⟨⟨spelling, value⟩, h⟩
    exact ⟨spelling, value, sets_of_setting? h⟩

instance : DecidablePred IsSetting := fun _ => decidable_of_iff _ isSetting_iff.symm

theorem applyArgument_of_not_isSetting (h : ¬ IsSetting argument) (options : Options) :
    applyArgument options argument = .ok options := by
  rw [isSetting_iff, Option.not_isSome_iff_eq_none] at h
  simp only [applyArgument, h]

theorem applyArgument_of_isWritten (h : Sets argument spelling value) {level : ChainCheck}
    (hlevel : level.IsWritten value) (options : Options) :
    applyArgument options argument = .ok { options with chainCheck := level } := by
  simp only [applyArgument, setting?_of_sets h, (ChainCheck.parse_eq_ok_iff value level).2 hlevel]

theorem applyArgument_of_not_isWritten (h : Sets argument spelling value)
    (hnone : ∀ level : ChainCheck, ¬ level.IsWritten value) (options : Options) :
    applyArgument options argument = .error ⟨spelling, ⟨ChainCheck.normalize value⟩⟩ := by
  cases hparse : ChainCheck.parse value with
  | ok level => exact absurd ((ChainCheck.parse_eq_ok_iff value level).1 hparse) (hnone level)
  | error cause =>
    rw [ChainCheck.parse_eq_error hparse] at hparse
    simp only [applyArgument, setting?_of_sets h, hparse]

end Argument

section Lists

variable (arguments : List String)

theorem ofArguments_append (more : List String) :
    ofArguments (arguments ++ more) =
      ofArguments arguments >>= fun options => more.foldlM applyArgument options := by
  rw [ofArguments, List.foldlM_append]
  rfl

/-- No later argument repairs a refusal. -/
theorem ofArguments_append_of_error {error : ArgumentError}
    (h : ofArguments arguments = .error error) (more : List String) :
    ofArguments (arguments ++ more) = .error error := by
  rw [ofArguments_append, h]
  rfl

theorem ofArguments_concat_of_ok {options : Options} (h : ofArguments arguments = .ok options)
    (argument : String) :
    ofArguments (arguments ++ [argument]) = applyArgument options argument := by
  rw [ofArguments_append, h]
  exact bind_pure (applyArgument options argument)

theorem ofArguments_filter : ofArguments (arguments.filter IsSetting) = ofArguments arguments := by
  unfold ofArguments
  generalize ({} : Options) = options
  induction arguments generalizing options with
  | nil => rfl
  | cons argument arguments ih =>
    by_cases h : IsSetting argument
    · rw [List.filter_cons_of_pos (by simpa using h), List.foldlM_cons, List.foldlM_cons]
      congr 1
      funext next
      exact ih next
    · rw [List.filter_cons_of_neg (by simpa using h), List.foldlM_cons,
        applyArgument_of_not_isSetting h]
      exact ih options

theorem IsLastLevel.concat {arguments : List String} {level : ChainCheck} {argument : String}
    (h : IsLastLevel arguments level) (hargument : ¬ IsSetting argument) :
    IsLastLevel (arguments ++ [argument]) level := by
  rcases h with ⟨hlevel, hnone⟩ |
    ⟨before, last, after, spelling, value, hsplit, hsets, hlevel, hnone⟩
  · exact .inl ⟨hlevel, List.forall_mem_append.2 ⟨hnone, by simpa using hargument⟩⟩
  · exact .inr ⟨before, last, after ++ [argument], spelling, value, by simp [hsplit], hsets, hlevel,
      List.forall_mem_append.2 ⟨hnone, by simpa using hargument⟩⟩

/-- What the outcome says about the list that was read. -/
def Describes (arguments : List String) : Except ArgumentError Options → Prop
  | .ok options => (∀ a ∈ arguments, IsAccepted a) ∧ IsLastLevel arguments options.chainCheck
  | .error error => IsFirstRefused arguments error

theorem describes_ofArguments : Describes arguments (ofArguments arguments) := by
  induction arguments using List.reverseRecOn with
  | nil => exact ⟨by simp, .inl ⟨rfl, by simp⟩⟩
  | append_singleton arguments argument ih =>
    cases hread : ofArguments arguments with
    | error error =>
      rw [ofArguments_append_of_error arguments hread]
      rw [hread] at ih
      obtain ⟨before, refused, after, value, hsplit, hrest⟩ := ih
      exact ⟨before, refused, after ++ [argument], value, by simp [hsplit], hrest⟩
    | ok options =>
      rw [hread] at ih
      obtain ⟨haccepted, hlast⟩ := ih
      rw [ofArguments_concat_of_ok arguments hread]
      by_cases hsetting : IsSetting argument
      · obtain ⟨spelling, value, hsets⟩ := hsetting
        by_cases hlevel : ∃ level : ChainCheck, level.IsWritten value
        · obtain ⟨level, hlevel⟩ := hlevel
          rw [applyArgument_of_isWritten hsets hlevel]
          refine ⟨?_, .inr ⟨arguments, argument, [], spelling, value, rfl, hsets, hlevel, by simp⟩⟩
          exact List.forall_mem_append.2 ⟨haccepted, by
            simpa using isAccepted_of_isWritten hsets hlevel⟩
        · have hnone : ∀ level : ChainCheck, ¬ level.IsWritten value := by simpa using hlevel
          rw [applyArgument_of_not_isWritten hsets hnone]
          exact ⟨arguments, argument, [], value, rfl, haccepted, hsets, hnone, rfl⟩
      · rw [applyArgument_of_not_isSetting hsetting]
        refine ⟨?_, hlast.concat hsetting⟩
        exact List.forall_mem_append.2 ⟨haccepted, by
          simpa using isAccepted_of_not_isSetting hsetting⟩

/-- An argument list is read exactly if every setting in it has a level for its value, and then the
last setting counts, or a warning if there is none. Otherwise the spelling of the first setting with
another value is blamed, and no later argument changes this. Arguments that are no settings never
make a difference. -/
theorem ofArguments_reads_settings (arguments : List String) :
    ((∃ options, ofArguments arguments = .ok options) ↔ ∀ a ∈ arguments, IsAccepted a) ∧
    (∀ options, ofArguments arguments = .ok options → IsLastLevel arguments options.chainCheck) ∧
    (∀ error, ofArguments arguments = .error error →
      IsFirstRefused arguments error ∧ error.message = "invalid value for --" ++ error.spelling ∧
      ∀ more, ofArguments (arguments ++ more) = .error error) ∧
    ∀ others : List String, others.filter IsSetting = arguments.filter IsSetting →
      ofArguments others = ofArguments arguments := by
  have hdescribes := describes_ofArguments arguments
  refine ⟨?_, ?_, ?_, ?_⟩
  · cases hread : ofArguments arguments with
    | ok options =>
      rw [hread] at hdescribes
      exact iff_of_true ⟨options, rfl⟩ hdescribes.1
    | error error =>
      rw [hread] at hdescribes
      obtain ⟨before, refused, after, value, hsplit, _, hsets, hnone, _⟩ := hdescribes
      refine iff_of_false (by simp) fun haccepted => ?_
      obtain ⟨level, hlevel⟩ := haccepted refused (by simp [hsplit]) _ value hsets
      exact hnone level hlevel
  · intro options hread
    rw [hread] at hdescribes
    exact hdescribes.2
  · intro error hread
    rw [hread] at hdescribes
    exact ⟨hdescribes, rfl, ofArguments_append_of_error arguments hread⟩
  · intro others hsame
    rw [← ofArguments_filter others, hsame, ofArguments_filter]

end Lists

/-- Near misses around two settings, the second of which counts. -/
def settingList : List String :=
  ["--chained-cogroups", "--chainedCogroups=off", "---chainedCogroups=loud",
    "--chained-cogroups=\u00a0WaRN "]

theorem ofArguments_reads_settingList :
    ofArguments settingList = .ok ⟨.warning⟩ ∧ IsLastLevel settingList .warning ∧
    ofArguments (settingList ++ ["--chainedCogroups=off=off"]) =
      .error ⟨"chainedCogroups", ⟨"off=off"⟩⟩ ∧
    IsFirstRefused (settingList ++ ["--chainedCogroups=off=off"])
      ⟨"chainedCogroups", ⟨"off=off"⟩⟩ ∧
    ofArguments ["--chainedCogroups=off", "--chained-cogroups=\u00a0WaRN ", "verbose"] =
      .ok ⟨.warning⟩ := by
  have hread : ofArguments settingList = .ok ⟨.warning⟩ := rfl
  have hrefused : ofArguments (settingList ++ ["--chainedCogroups=off=off"]) =
      .error ⟨"chainedCogroups", ⟨"off=off"⟩⟩ := rfl
  obtain ⟨_, hlast, _, hsame⟩ := ofArguments_reads_settings settingList
  obtain ⟨_, _, hfirst, _⟩ :=
    ofArguments_reads_settings (settingList ++ ["--chainedCogroups=off=off"])
  refine ⟨hread, hlast _ hread, hrefused, (hfirst _ hrefused).1, ?_⟩
  rw [hsame _ (by decide), hread]

end Options

end JoinPipeline
