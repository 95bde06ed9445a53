import OpenTulpa.Library.Spaces
import OpenTulpa.Library.Splitting
import OpenTulpa.Library.Templates

/-! The summary of an uploaded file: one text that is built when the file comes in, into which the analysis of its media
is spliced later, and from which that analysis is read again. -/

namespace OpenTulpa.Context.FileSummaries

open Library Library.Text Library.Spaces Library.Splitting Library.Templates

section Model

def analysisMark : List Char := "ai_summary=".toList

def isEdge (c : Char) : Bool := c == ' ' || c == '|'

/-- What a record of a file says about it, apart from the analysis. -/
structure FileRecord where
  kind : List Char
  filename : List Char
  mimeType : Option (List Char)
  caption : Option (List Char)
  textExcerpt : List Char
  deriving DecidableEq

/-- The parts of the summary of a new file. -/
def summaryParts (file : FileRecord) : List (List Char) :=
  let mimeType := file.mimeType.getD []
  let caption := file.caption.getD []
  let head := (file.textExcerpt.take 1200).map fun c => if c = '\n' then ' ' else c
  [file.kind ++ " file '".toList ++ file.filename ++ ['\'']] ++
    (if mimeType.isEmpty then [] else ["type=".toList ++ mimeType]) ++
    (if caption.isEmpty then [] else ["caption=".toList ++ (stripChars caption).take 280]) ++
    (if file.textExcerpt.isEmpty then [] else ["content_preview=".toList ++ head])

/-- `_build_summary` -/
def buildSummary (file : FileRecord) : List Char := ([' ', '|', ' '].intercalate (summaryParts file)).take 2200

/-- `re.sub(r"ai_summary=.*$", template, base)` -/
def subAnalysis (template : List Char) : List Char → Option (List Char)
  | [] => (expand [] template).map fun _ => []
  | c :: rest =>
    let line := (c :: rest).takeWhile (· != '\n')
    let after := (c :: rest).dropWhile (· != '\n')
    if analysisMark.isPrefixOf (c :: rest) && (after.isEmpty || after == ['\n']) then
      (expand line template).map (· ++ after)
    else (subAnalysis template rest).map (c :: ·)

/-- `set_ai_summary` on the summary of the record; `none` when the substitution raises. -/
def setAiSummary (summary aiSummary : List Char) : Option (List Char) :=
  let insight := stripChars aiSummary
  if insight.isEmpty then some summary
  else
    let base := stripChars summary
    let marker := analysisMark ++ insight.take 4000
    let merged := match cut analysisMark base with
      | some _ => (subAnalysis marker base).map (trimChars isEdge)
      | none => some (trimChars isEdge (base ++ " | ".toList ++ marker))
    merged.map (·.take 8000)

/-- The calls one after another. -/
def setAll : List Char → List (List Char) → Option (List Char)
  | summary, [] => some summary
  | summary, text :: texts => (setAiSummary summary text).bind fun stored => setAll stored texts

/-- `_derived_media_text` -/
def derivedMediaText (summary textExcerpt : List Char) : List Char :=
  match cut analysisMark (stripChars summary) with
  | some (_, behind) => (stripChars behind).take 6000
  | none => (stripChars textExcerpt).take 6000

end Model

section Splicing

/-- The text in front of the analysis that the next one will follow. -/
def front (summary : List Char) : List Char :=
  match cut analysisMark (stripChars summary) with
  | some (before, _) => before
  | none => stripChars summary ++ " | ".toList

def insightOf (text : List Char) : List Char := (stripChars text).take 4000

/-- A call that replaces the analysis: the text is not blank, the analysis that it replaces is one line, and the text is
a template of itself. -/
def Plain (summary text : List Char) : Prop :=
  stripChars text ≠ [] ∧ ∀ sides ∈ cut analysisMark (stripChars summary), '\n' ∉ sides.2 ∧
    expand (analysisMark ++ sides.2) (insightOf text) = some (insightOf text)

instance decidablePlain (summary text : List Char) : Decidable (Plain summary text) :=
  match found : cut analysisMark (stripChars summary) with
  | none => decidable_of_iff (stripChars text ≠ []) (by simp [Plain, found])
  | some sides => decidable_of_iff (stripChars text ≠ [] ∧ '\n' ∉ sides.2 ∧
      expand (analysisMark ++ sides.2) (insightOf text) = some (insightOf text)) (by simp [Plain, found])

theorem trimChars_mark (before insight : List Char) :
    trimChars isEdge (before ++ analysisMark ++ insight) =
      before.dropWhile isEdge ++ analysisMark ++ insight.rdropWhile isEdge :=
  trimChars_between (by decide) (by decide) (by decide) before insight

theorem stripChars_mark (before behind : List Char) :
    stripChars (before ++ analysisMark ++ behind) = before.dropWhile isSpace ++ analysisMark ++ rstrip behind :=
  trimChars_between (by decide) (by decide) (by decide) before behind

theorem free_front (summary : List Char) : Free analysisMark (front summary) := by
  have filled : analysisMark ≠ [] := by decide
  rw [front]
  by_cases occurs : analysisMark <:+: stripChars summary
  · obtain ⟨before, after, _, free, found⟩ := cut_occurs filled occurs
    rw [found]
    exact free
  · have space : ' ' ∉ analysisMark := by decide
    have short : ¬ analysisMark <:+: '|' :: ' ' :: analysisMark.dropLast := by decide
    rw [cut_none occurs, Free, List.append_assoc]
    change ¬ analysisMark <:+: stripChars summary ++ ' ' :: '|' :: ' ' :: analysisMark.dropLast
    rw [infix_append_cons space]
    exact not_or.mpr ⟨occurs, short⟩

/-- The substitution meets the analysis at its mark when it is one line. -/
theorem subAnalysis_line {before behind template : List Char} (free : Free analysisMark before) (line : '\n' ∉ behind) :
    subAnalysis template (before ++ analysisMark ++ behind) = (expand (analysisMark ++ behind) template).map (before ++ ·) := by
  induction before with
  | nil =>
    have whole : ∀ c ∈ analysisMark ++ behind, (c != '\n') = true := by
      intro c member
      rcases List.mem_append.mp member with named | inside
      · have all : ∀ c ∈ analysisMark, (c != '\n') = true := by decide
        exact all c named
      · exact bne_iff_ne.mpr fun same => line (same ▸ inside)
    have kept : (analysisMark ++ behind).takeWhile (· != '\n') = analysisMark ++ behind := List.takeWhile_eq_self_iff.mpr whole
    have gone : (analysisMark ++ behind).dropWhile (· != '\n') = [] := List.dropWhile_eq_nil_iff.mpr whole
    have stands : analysisMark.isPrefixOf (analysisMark ++ behind) = true :=
      List.isPrefixOf_iff_prefix.mpr (List.prefix_append _ _)
    obtain ⟨c, rest, begins⟩ : ∃ c rest, analysisMark ++ behind = c :: rest := ⟨_, _, rfl⟩
    rw [List.nil_append]
    rw [begins] at kept gone stands ⊢
    rw [subAnalysis, kept, gone, stands]
    simp
  | cons c before ih =>
    have apart : analysisMark.isPrefixOf (c :: before ++ analysisMark ++ behind) = false := free.not_prefix
    rw [List.cons_append, List.cons_append] at apart ⊢
    rw [subAnalysis, apart, ih free.tail, Option.map_map]
    simp
    rfl

theorem setAiSummary_plain {summary text : List Char} (plain : Plain summary text) (short : (front summary).length ≤ 2203) :
    setAiSummary summary text =
      some ((front summary).dropWhile isEdge ++ analysisMark ++ (insightOf text).rdropWhile isEdge) := by
  obtain ⟨shown, replaces⟩ := plain
  have filled : analysisMark ≠ [] := by decide
  have fits (before : List Char) (bounded : before.length ≤ 2203) :
      (before.dropWhile isEdge ++ analysisMark ++ (insightOf text).rdropWhile isEdge).take 8000 =
        before.dropWhile isEdge ++ analysisMark ++ (insightOf text).rdropWhile isEdge := by
    have first := (List.dropWhile_suffix (l := before) isEdge).length_le
    have last := (List.rdropWhile_prefix isEdge (l := insightOf text)).length_le
    have most : (insightOf text).length ≤ 4000 := List.length_take_le _ _
    have mark : analysisMark.length = 11 := by decide
    refine List.take_of_length_le ?_
    rw [List.length_append, List.length_append]
    omega
  rw [setAiSummary, if_neg (by simpa using shown)]
  simp only
  rw [← insightOf]
  by_cases occurs : analysisMark <:+: stripChars summary
  · obtain ⟨before, behind, same, free, found⟩ := cut_occurs filled occurs
    obtain ⟨line, own⟩ := replaces _ found
    have plain : '\\' ∉ analysisMark := by decide
    have named : front summary = before := by rw [front, found]
    have template : expand (analysisMark ++ behind) (analysisMark ++ insightOf text) = some (analysisMark ++ insightOf text) := by
      rw [expand_plain _ plain, own, Option.map_some]
    rw [named] at short ⊢
    rw [found]
    simp only
    rw [same, subAnalysis_line free line, template, Option.map_some, Option.map_some, ← List.append_assoc, trimChars_mark,
      Option.map_some, fits before short]
  · have named : front summary = stripChars summary ++ " | ".toList := by rw [front, cut_none occurs]
    rw [named] at short ⊢
    rw [cut_none occurs]
    simp only
    rw [← List.append_assoc, trimChars_mark, Option.map_some, fits _ short]

/-- What the next call and the reader find of what a call stored. -/
theorem cut_stored {before : List Char} (free : Free analysisMark before) (behind : List Char) :
    cut analysisMark (stripChars (before ++ analysisMark ++ behind)) = some (before.dropWhile isSpace, rstrip behind) := by
  have filled : analysisMark ≠ [] := by decide
  rw [stripChars_mark, cut_append filled (free.suffix (List.dropWhile_suffix isSpace))]

theorem front_stored {before : List Char} (free : Free analysisMark before) (behind : List Char) :
    front (before ++ analysisMark ++ behind) = before.dropWhile isSpace := by
  rw [front, cut_stored free]

end Splicing

section Sequences

/-- Each call replaces the analysis, on the summary that the calls before it have stored. -/
def Accepted : List Char → List (List Char) → Prop
  | _, [] => True
  | summary, text :: texts => Plain summary text ∧ ∀ stored ∈ setAiSummary summary text, Accepted stored texts

/-- Without bars and spaces in front, the summary begins with nothing else that is white. -/
def Settled (summary : List Char) : Prop :=
  ((front summary).dropWhile isEdge).dropWhile isSpace = (front summary).dropWhile isEdge

/-- White space and bars. -/
def isMargin (c : Char) : Bool := isSpace c || c == '|'

theorem dropWhile_idem (edge : Char → Bool) (text : List Char) :
    (text.dropWhile edge).dropWhile edge = text.dropWhile edge := dropWhile_dropWhile_of_imp (fun _ edge => edge) text

/-- What calls leave: the text that was there, and the last analysis behind its mark. -/
theorem setAll_stored {summary last : List Char} (texts : List (List Char)) (short : (front summary).length ≤ 2203)
    (accepted : Accepted summary (texts ++ [last])) : ∃ before, before <:+ front summary ∧
      setAll summary (texts ++ [last]) = some (before ++ analysisMark ++ (insightOf last).rdropWhile isEdge) ∧
      (Settled summary → before = (front summary).dropWhile isEdge) := by
  induction texts generalizing summary with
  | nil =>
    refine ⟨_, List.dropWhile_suffix isEdge, ?_, fun _ => rfl⟩
    rw [List.nil_append, setAll, setAiSummary_plain accepted.1 short]
    rfl
  | cons text texts ih =>
    obtain ⟨plain, later⟩ := accepted
    have stored := setAiSummary_plain plain short
    have free := (free_front summary).suffix (List.dropWhile_suffix isEdge)
    have next := front_stored free ((insightOf text).rdropWhile isEdge)
    have ends := (List.dropWhile_suffix (l := (front summary).dropWhile isEdge) isSpace).trans
      (List.dropWhile_suffix (l := front summary) isEdge)
    obtain ⟨before, inside, done, settled⟩ := ih (by rw [next]; exact ends.length_le.trans short) (later _ stored)
    rw [next] at inside settled
    refine ⟨before, inside.trans ends, ?_, fun same => ?_⟩
    · rw [List.cons_append, setAll, stored]
      exact done
    · have kept : ((front summary).dropWhile isEdge).dropWhile isSpace = (front summary).dropWhile isEdge := same
      have still : Settled ((front summary).dropWhile isEdge ++ analysisMark ++ (insightOf text).rdropWhile isEdge) := by
        rw [Settled, next, kept, dropWhile_idem, kept]
      rw [settled still, kept, dropWhile_idem]

theorem derived_stored {before : List Char} (free : Free analysisMark before) (last textExcerpt : List Char) :
    trimChars isMargin (derivedMediaText (before ++ analysisMark ++ (insightOf last).rdropWhile isEdge) textExcerpt) =
      trimChars isMargin (insightOf last) := by
  have space (c : Char) (white : isSpace c = true) : isMargin c = true := by simp [isMargin, white]
  have edge (c : Char) (edge : isEdge c = true) : isMargin c = true := by
    rcases Bool.or_eq_true_iff.mp edge with blank | bar
    · rw [beq_iff_eq.mp blank]
      decide
    · rw [beq_iff_eq.mp bar]
      decide
  have most : (stripChars (rstrip ((insightOf last).rdropWhile isEdge))).length ≤ 6000 := by
    have inner := (List.rdropWhile_prefix isEdge (l := insightOf last)).length_le
    have right := (List.rdropWhile_prefix isSpace (l := (insightOf last).rdropWhile isEdge)).length_le
    have left := (List.dropWhile_suffix (l := rstrip ((insightOf last).rdropWhile isEdge)) isSpace).length_le
    have again := (List.rdropWhile_prefix isSpace (l := (rstrip ((insightOf last).rdropWhile isEdge)).dropWhile isSpace)).length_le
    have bounded : (insightOf last).length ≤ 4000 := List.length_take_le _ _
    rw [stripChars]
    rw [rstrip] at *
    omega
  rw [derivedMediaText, cut_stored free]
  simp only
  rw [List.take_of_length_le most, stripChars, trimChars_rdropWhile space, trimChars_dropWhile space, rstrip,
    trimChars_rdropWhile space, trimChars_rdropWhile edge]

theorem front_buildSummary (file : FileRecord) : (front (buildSummary file)).length ≤ 2203 := by
  have built : (buildSummary file).length ≤ 2200 := List.length_take_le _ _
  have left := (List.dropWhile_suffix (l := buildSummary file) isSpace).length_le
  have right := (List.rdropWhile_prefix isSpace (l := (buildSummary file).dropWhile isSpace)).length_le
  have stripped : (stripChars (buildSummary file)).length ≤ 2200 := by
    rw [stripChars]
    omega
  have filled : analysisMark ≠ [] := by decide
  rw [front]
  by_cases occurs : analysisMark <:+: stripChars (buildSummary file)
  · obtain ⟨before, behind, same, _, found⟩ := cut_occurs filled occurs
    rw [same, List.length_append, List.length_append] at stripped
    rw [found]
    simp only
    omega
  · rw [cut_none occurs]
    simp only [List.length_append]
    have three : " | ".toList.length = 3 := by decide
    omega

/-- The last media analysis wins when every call finds an analysis of one line, or none, and its text is not blank and
stands for itself as a template: all calls return, the last text is read back, and setting it alone stores the same. -/
theorem last_analysis_wins (file : FileRecord) (texts : List (List Char)) (last : List Char)
    (accepted : Accepted (buildSummary file) (texts ++ [last])) :
    ∃ stored, setAll (buildSummary file) (texts ++ [last]) = some stored ∧
      trimChars isMargin (derivedMediaText stored file.textExcerpt) = trimChars isMargin (insightOf last) ∧
      (Settled (buildSummary file) → Accepted (buildSummary file) [last] → setAll (buildSummary file) [last] = some stored) := by
  have short := front_buildSummary file
  obtain ⟨before, inside, done, settled⟩ := setAll_stored texts short accepted
  refine ⟨_, done, derived_stored ((free_front _).suffix inside) last file.textExcerpt, fun level alone => ?_⟩
  obtain ⟨direct, _, once, same⟩ := setAll_stored [] short alone
  rw [settled level, ← same level]
  exact once

/-- A plain photo. -/
def photo : FileRecord := ⟨"image".toList, "a.png".toList, none, none, []⟩

theorem last_analysis_wins_photo : ∃ stored, setAll (buildSummary photo) ["a cat".toList, "a dog".toList] = some stored ∧
    trimChars isMargin (derivedMediaText stored []) = trimChars isMargin (insightOf "a dog".toList) ∧
    (Settled (buildSummary photo) → Accepted (buildSummary photo) ["a dog".toList] →
      setAll (buildSummary photo) ["a dog".toList] = some stored) := by
  have first : Plain (buildSummary photo) "a cat".toList := by decide +kernel
  have second : ∀ stored ∈ setAiSummary (buildSummary photo) "a cat".toList, Plain stored "a dog".toList := by decide +kernel
  exact last_analysis_wins photo ["a cat".toList] "a dog".toList
    ⟨first, fun stored made => ⟨second stored made, fun _ _ => trivial⟩⟩

/-- An analysis of two lines stays, and one with a backslash is refused. -/
theorem two_lines_stay : (∃ stored, setAll (buildSummary photo) ["a cat\non a mat".toList, "a dog".toList] = some stored ∧
      derivedMediaText stored [] = "a cat\non a mat".toList ∧
      trimChars isMargin (derivedMediaText stored []) ≠ trimChars isMargin (insightOf "a dog".toList)) ∧
    setAll (buildSummary photo) ["a cat".toList, "C:\\pictures".toList] = none := by
  refine ⟨⟨(setAll (buildSummary photo) ["a cat\non a mat".toList, "a dog".toList]).getD [], ?_, ?_, ?_⟩, ?_⟩ <;> decide +kernel

end Sequences

end OpenTulpa.Context.FileSummaries
