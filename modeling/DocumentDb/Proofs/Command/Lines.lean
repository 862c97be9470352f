import DocumentDb.Command.Arguments
import DocumentDb.Proofs.Outcome
import DocumentDb.Proofs.Text.Margins

/-!
# Lines of arguments

What stands on a command line is said by `Written`, without the steps in which it is read: options
with their values, flags and plain values, one after the other. Arguments are read from a line just
if it is written from entries that may be added one after the other.

* `shaped_iff`: what an argument is by its shape.
* `read_iff`: what is read is what was written.
-/

namespace DocumentDb.Command

/-! ### Shapes -/

namespace Shape

section Pairs
variable {text name value : String}

theorem splitPair?_pair (hname : '=' ∉ name.toList) (value : String) :
    splitPair? (name ++ "=" ++ value) = some (name, value) := by
  have htext : (name ++ "=" ++ value).toList = name.toList ++ '=' :: value.toList := by simp
  have hrun : ∀ c ∈ name.toList, decide (c ≠ '=') = true := fun c hc =>
    decide_eq_true fun heq => hname (heq ▸ hc)
  have hstop : ∀ c ∈ ('=' :: value.toList).head?, decide (c ≠ '=') = false := by simp
  unfold splitPair?
  dsimp only
  rw [htext, Text.dropWhile_run hrun hstop, Text.takeWhile_run hrun hstop]
  simp

theorem splitPair?_name (hname : '=' ∉ name.toList) : splitPair? name = none := by
  have hnil : name.toList.dropWhile (fun c => decide (c ≠ '=')) = [] :=
    List.dropWhile_eq_nil_iff.mpr fun c hc => decide_eq_true fun heq => hname (heq ▸ hc)
  unfold splitPair?
  dsimp only
  rw [hnil]

theorem exists_pair (h : '=' ∈ text.toList) :
    ∃ name value, text = name ++ "=" ++ value ∧ '=' ∉ name.toList := by
  obtain ⟨before, after, htext, hbefore⟩ := List.eq_append_cons_of_mem h
  refine ⟨String.ofList before, String.ofList after, ?_, by rwa [String.toList_ofList]⟩
  rw [← String.toList_inj, htext]
  simp

end Pairs

end Shape

/-- A text that stands for itself: it does not begin with a hyphen, unless it is a single one. -/
def PlainText (text : String) : Prop := text.toList.head? = some '-' → text = "-"

/-- **What an argument is by its shape.** -/
inductive Shaped : String → Shape → Prop
  | separator : Shaped "--" .separator
  | attached {name value : String} (hname : '=' ∉ name.toList) :
      Shaped ("--" ++ (name ++ "=" ++ value)) (.long name (some value))
  | named {name : String} (hname : '=' ∉ name.toList) (hne : name ≠ "") :
      Shaped ("--" ++ name) (.long name none)
  | short {letter : Char} {rest : List Char} (hletter : letter ≠ '-') :
      Shaped (String.ofList ('-' :: letter :: rest)) (.short letter)
  | plain {text : String} (h : PlainText text) : Shaped text .plain

theorem ofText_hyphens {name : String} (hne : name ≠ "") : Shape.ofText ("--" ++ name) =
    match Shape.splitPair? name with
    | some (name, value) => .long name (some value)
    | none => .long name none := by
  have htext : ("--" ++ name).toList = '-' :: '-' :: name.toList := by simp
  have hname : name.toList ≠ [] := fun hnil => hne (String.toList_inj.mp hnil)
  unfold Shape.ofText
  rw [htext]
  obtain ⟨c, cs, hcons⟩ := List.exists_cons_of_ne_nil hname
  have hback : String.ofList (c :: cs) = name := by rw [← hcons, String.ofList_toList]
  rw [hcons]
  cases hpair : Shape.splitPair? name with
  | none => simp only [hback, hpair]
  | some pair => simp only [hback, hpair]

theorem shaped_ofText (text : String) : Shaped text (Shape.ofText text) := by
  by_cases hhyphen : text.toList.head? = some '-'
  · obtain ⟨rest, hrest⟩ := List.head?_eq_some_iff.mp hhyphen
    have htext : text = String.ofList ('-' :: rest) := by rw [← hrest, String.ofList_toList]
    rcases rest with _ | ⟨letter, rest⟩
    · rw [htext]
      exact .plain fun _ => rfl
    by_cases hletter : letter = '-'
    · have hname : text = "--" ++ String.ofList rest := by
        rw [htext, hletter, ← String.toList_inj]
        simp
      rw [hname]
      by_cases hne : String.ofList rest = ""
      · rw [hne]
        exact .separator
      rw [ofText_hyphens hne]
      by_cases hpair : '=' ∈ (String.ofList rest).toList
      · obtain ⟨name, value, hsplit, hin⟩ := Shape.exists_pair hpair
        rw [hsplit, Shape.splitPair?_pair hin]
        exact .attached hin
      · rw [Shape.splitPair?_name hpair]
        exact .named hpair hne
    · have hshort : Shape.ofText text = .short letter := by
        unfold Shape.ofText
        rw [hrest]
        split <;> simp_all
      rw [hshort, htext]
      exact .short hletter
  · have hplain : Shape.ofText text = .plain := by
      unfold Shape.ofText
      split <;> simp_all
    rw [hplain]
    exact .plain fun h => absurd h hhyphen

theorem Shaped.ofText_eq {text : String} {shape : Shape} (h : Shaped text shape) :
    Shape.ofText text = shape := by
  cases h with
  | separator => rfl
  | @attached name value hname =>
    have hne : name ++ "=" ++ value ≠ "" := by
      intro hempty
      have hlength := congrArg (List.length ∘ String.toList) hempty
      simp at hlength
    rw [ofText_hyphens hne, Shape.splitPair?_pair hname]
  | named hname hne => rw [ofText_hyphens hne, Shape.splitPair?_name hname]
  | short hletter =>
    unfold Shape.ofText
    rw [String.toList_ofList]
    split <;> simp_all
  | plain hplain =>
    unfold PlainText at hplain
    unfold Shape.ofText
    split <;> simp_all

/-- **Every argument has one shape.** -/
theorem shaped_iff {text : String} {shape : Shape} :
    Shaped text shape ↔ Shape.ofText text = shape :=
  ⟨Shaped.ofText_eq, fun h => h ▸ shaped_ofText text⟩

theorem isPlain_ofText_iff {text : String} :
    (Shape.ofText text).isPlain = true ↔ PlainText text := by
  constructor
  · intro h
    have hshaped := shaped_ofText text
    generalize Shape.ofText text = shape at h hshaped
    cases hshaped with
    | plain hplain => exact hplain
    | _ => cases h
  · intro h
    rw [(Shaped.plain h).ofText_eq]
    rfl

/-! ### Lines -/

/-- What stands on a command line. -/
inductive Entry where
  /-- An option with its value; that of a flag is empty. -/
  | option (name value : String)
  | value (text : String)
deriving DecidableEq, Repr

/-- There is an option of a name, and it has a value or is a flag. -/
def Form.Takes (form : Form) (name : String) (takesValue : Bool) : Prop :=
  ∃ option, form.option? name = some option ∧ option.takesValue = takesValue

/-- **How entries are written** as arguments of a form. -/
inductive Written (form : Form) : List Entry → List String → Prop
  | nil : Written form [] []
  | separated {values : List String} : Written form (values.map .value) ("--" :: values)
  | value {text : String} {entries : List Entry} {texts : List String} (hplain : PlainText text)
      (h : Written form entries texts) : Written form (.value text :: entries) (text :: texts)
  | flag {name : String} {entries : List Entry} {texts : List String} (hname : form.Takes name false)
      (h : Written form entries texts) :
      Written form (.option name "" :: entries) (("--" ++ name) :: texts)
  | attached {name value : String} {entries : List Entry} {texts : List String}
      (hname : form.Takes name true) (h : Written form entries texts) :
      Written form (.option name value :: entries) (("--" ++ (name ++ "=" ++ value)) :: texts)
  | detached {name value : String} {entries : List Entry} {texts : List String}
      (hname : form.Takes name true) (hplain : PlainText value) (h : Written form entries texts) :
      Written form (.option name value :: entries) (("--" ++ name) :: value :: texts)

/-- Add an entry to what was read. -/
def Entry.addTo (form : Form) (given : Arguments) : Entry → Except Stop Arguments
  | .value text => given.withValue form text
  | .option name text =>
    match form.option? name with
    | some found => given.withOption found text
    | none => .error .misuse

/-- Add entries one after the other. -/
def addAll (form : Form) : List Entry → Arguments → Except Stop Arguments
  | [], given => .ok given
  | entry :: rest, given => do addAll form rest (← entry.addTo form given)

theorem addAll_values {form : Form} (values : List String) (given : Arguments) :
    addAll form (values.map .value) given = Arguments.withValues form values given := by
  induction values generalizing given with
  | nil => rfl
  | cons value rest ih =>
    have hrest : addAll form (rest.map .value) = Arguments.withValues form rest := funext ih
    rw [List.map_cons, addAll, Arguments.withValues, hrest]
    rfl

theorem addAll_append {form : Form} (first second : List Entry) (given : Arguments) :
    addAll form (first ++ second) given = addAll form first given >>= addAll form second := by
  induction first generalizing given with
  | nil => rfl
  | cons entry rest ih =>
    have hrest : addAll form (rest ++ second) = fun next =>
        addAll form rest next >>= addAll form second := funext ih
    rw [List.cons_append, addAll, addAll, hrest, bind_assoc]

/-- The names of the options have no equality signs, and none is that of a wish for help. -/
def Form.Regular (form : Form) : Prop :=
  ∀ option ∈ form.options, option.name ≠ "" ∧ '=' ∉ option.name.toList ∧ option.name ≠ "help" ∧
    option.name ≠ "version"

section Reading
variable {form : Form} {entries : List Entry} {texts : List String} {given final : Arguments}

theorem Form.option?_eq {name : String} {found : OptionForm} (h : form.option? name = some found) :
    found ∈ form.options ∧ found.name = name :=
  ⟨List.mem_of_find?_eq_some h, by simpa using List.find?_some h⟩

/-- The names of options are written as such. -/
theorem Form.Regular.name (hregular : form.Regular) {name : String} {takesValue : Bool}
    (h : form.Takes name takesValue) :
    name ≠ "" ∧ '=' ∉ name.toList ∧ name ≠ "help" ∧ name ≠ "version" := by
  obtain ⟨found, hfound, -⟩ := h
  obtain ⟨hin, rfl⟩ := Form.option?_eq hfound
  exact hregular found hin

/-- **What is written is read**, entry by entry. -/
theorem Written.readOnto_eq (hregular : form.Regular) (hleads : form.leads = false)
    (h : Written form entries texts) (given : Arguments) :
    Arguments.readOnto form texts given = addAll form entries given := by
  induction h generalizing given with
  | nil => rfl
  | separated =>
    rw [Arguments.readOnto, Shaped.separator.ofText_eq, addAll_values]
  | @value text entries texts hplain _ ih =>
    have hrest : Arguments.readOnto form texts = addAll form entries := funext ih
    rw [Arguments.readOnto, (Shaped.plain hplain).ofText_eq, hrest, addAll]
    simp [hleads, Entry.addTo]
  | @flag name entries texts hname _ ih =>
    have hrest : Arguments.readOnto form texts = addAll form entries := funext ih
    obtain ⟨hne, hequal, hhelp, -⟩ := hregular.name hname
    obtain ⟨found, hfound, htakes⟩ := hname
    rw [Arguments.readOnto, (Shaped.named hequal hne).ofText_eq, hrest, addAll]
    simp [hhelp, hleads, hfound, htakes, Entry.addTo]
  | @attached name value entries texts hname _ ih =>
    have hrest : Arguments.readOnto form texts = addAll form entries := funext ih
    obtain ⟨-, hequal, -, -⟩ := hregular.name hname
    obtain ⟨found, hfound, htakes⟩ := hname
    rw [Arguments.readOnto, (Shaped.attached hequal).ofText_eq, hrest, addAll]
    simp [hfound, htakes, Entry.addTo]
  | @detached name value entries texts hname hplain _ ih =>
    have hrest : Arguments.readOnto form texts = addAll form entries := funext ih
    obtain ⟨hne, hequal, hhelp, -⟩ := hregular.name hname
    obtain ⟨found, hfound, htakes⟩ := hname
    rw [Arguments.readOnto, (Shaped.named hequal hne).ofText_eq, addAll]
    simp [hhelp, hleads, hfound, htakes, Entry.addTo, isPlain_ofText_iff.mpr hplain, hrest]

/-- **What was read**: all texts, or the options before a word that leads others. -/
inductive Reads (form : Form) (given : Arguments) : List String → Arguments → Prop
  | all {entries : List Entry} {texts : List String} {final : Arguments}
      (h : Written form entries texts) (hadd : addAll form entries given = .ok final) :
      Reads form given texts final
  | leading {entries : List Entry} {front rest : List String} {word : String} {next : Arguments}
      (hleads : form.leads = true) (h : Written form entries front)
      (hoptions : ∀ text, Entry.value text ∉ entries) (hadd : addAll form entries given = .ok next) :
      Reads form given (front ++ word :: rest) { next with rest := word :: rest }

/-- One more entry in front of what was read. -/
theorem Reads.cons {next : Arguments} (entry : Entry) (pieces : List String)
    (hadd : entry.addTo form given = .ok next)
    (hoption : form.leads = true → ∀ text, entry ≠ .value text)
    (hwritten : ∀ entries front, Written form entries front →
      Written form (entry :: entries) (pieces ++ front))
    (h : Reads form next texts final) : Reads form given (pieces ++ texts) final := by
  have haddAll : ∀ entries, addAll form (entry :: entries) given = addAll form entries next := by
    intro entries
    rw [addAll, hadd]
    rfl
  cases h with
  | all h hrest => exact .all (hwritten _ _ h) ((haddAll _).trans hrest)
  | leading hleads h hoptions hrest =>
    rw [← List.append_assoc]
    refine .leading hleads (hwritten _ _ h) (fun text hin => ?_) ((haddAll _).trans hrest)
    rcases List.mem_cons.mp hin with heq | hin
    · exact hoption hleads text heq.symm
    · exact hoptions text hin

/-- **What is read was written.** -/
theorem reads_of_readOnto (h : Arguments.readOnto form texts given = .ok final) :
    Reads form given texts final := by
  fun_induction Arguments.readOnto form texts given with
  | case1 =>
    cases h
    exact .all .nil rfl
  | case2 text values given hshape =>
    cases shaped_iff.mpr hshape
    exact .all .separated ((addAll_values values given).trans h)
  | case6 text rest given hshape hleads =>
    cases h
    show Reads form given ([] ++ text :: rest) _
    exact .leading hleads .nil (fun _ => List.not_mem_nil) rfl
  | case7 text rest given hshape hleads ih =>
    cases shaped_iff.mpr hshape with
    | plain hplain =>
      obtain ⟨next, hadd, hrest⟩ := bind_ok_iff.mp h
      exact Reads.cons (.value text) [text] hadd (fun hlead => absurd hlead hleads)
        (fun _ _ => .value hplain) (ih next hrest)
  | case12 text rest given name found hfound htakes hshape _ _ ih =>
    cases shaped_iff.mpr hshape
    obtain ⟨next, hadd, hrest⟩ := bind_ok_iff.mp h
    refine Reads.cons (.option name "") ["--" ++ name] ?_ (fun _ _ => nofun)
      (fun _ _ => .flag ⟨found, hfound, htakes⟩) (ih next hrest)
    simpa only [Entry.addTo, hfound] using hadd
  | case13 text rest given name found hfound value htakes hshape _ _ ih =>
    cases shaped_iff.mpr hshape
    obtain ⟨next, hadd, hrest⟩ := bind_ok_iff.mp h
    refine Reads.cons (.option name value) ["--" ++ (name ++ "=" ++ value)] ?_ (fun _ _ => nofun)
      (fun _ _ => .attached ⟨found, hfound, htakes⟩) (ih next hrest)
    simpa only [Entry.addTo, hfound] using hadd
  | case15 text given name found hfound htakes value rest hvalue hshape _ _ ih =>
    cases shaped_iff.mpr hshape
    obtain ⟨next, hadd, hrest⟩ := bind_ok_iff.mp h
    refine Reads.cons (.option name value) ["--" ++ name, value] ?_ (fun _ _ => nofun)
      (fun _ _ => .detached ⟨found, hfound, htakes⟩ (isPlain_ofText_iff.mp hvalue)) (ih next hrest)
    simpa only [Entry.addTo, hfound] using hadd
  -- nothing else is read any further
  | _ => cases h

/-- The option that an entry is. -/
def Entry.option? : Entry → Option (String × String)
  | .option name text => some (name, text)
  | .value _ => none

/-- An entry is added behind the options, and words that lead others are no entries. -/
theorem addTo_ok {entry : Entry} (h : entry.addTo form given = .ok final) :
    final.options = given.options ++ entry.option?.toList ∧ final.rest = given.rest := by
  cases entry with
  | value text =>
    simp only [Entry.addTo, Arguments.withValue] at h
    split_ifs at h
    cases h
    exact ⟨(List.append_nil _).symm, rfl⟩
  | option name text =>
    simp only [Entry.addTo] at h
    split at h
    · next found hfound =>
      unfold Arguments.withOption at h
      split_ifs at h
      cases h
      rw [← (Form.option?_eq hfound).2]
      exact ⟨rfl, rfl⟩
    · cases h

/-- Entries are added in their order. -/
theorem addAll_ok (h : addAll form entries given = .ok final) :
    final.options = given.options ++ entries.filterMap Entry.option? ∧ final.rest = given.rest := by
  induction entries generalizing given with
  | nil =>
    cases h
    exact ⟨(List.append_nil _).symm, rfl⟩
  | cons entry rest ih =>
    obtain ⟨next, hadd, hrest⟩ := bind_ok_iff.mp h
    obtain ⟨hfirst, hsame⟩ := addTo_ok hadd
    obtain ⟨hothers, hall⟩ := ih hrest
    rw [hothers, hfirst, hall, hsame]
    refine ⟨?_, rfl⟩
    cases hoption : entry.option? with
    | none => simp [hoption]
    | some found => simp [hoption]

/-- **Reading a line**: it is written from entries that may be added one after the other. -/
theorem read_iff (hregular : form.Regular) (hleads : form.leads = false) :
    Arguments.read form texts = .ok final ↔
      ∃ entries, Written form entries texts ∧ addAll form entries {} = .ok final := by
  constructor
  · intro h
    cases reads_of_readOnto h with
    | all hwritten hadd => exact ⟨_, hwritten, hadd⟩
    | leading hlead => rw [hleads] at hlead; cases hlead
  · rintro ⟨entries, hwritten, hadd⟩
    exact (hwritten.readOnto_eq hregular hleads {}).trans hadd

end Reading

end DocumentDb.Command
