import AstraIndexator.Splitter.Units

/-!
# Logical splitting

Units are collected until a limit or a boundary ends the group, small groups are
merged with a neighbour, and every group becomes a fragment.
-/

namespace AstraIndexator

open Text

/-- A group of units with the reason it ended. -/
structure UnitGroup where
  units : List SplitUnit
  reason : String
  forced : Bool

/-- What `_size` counts. -/
structure UnitSize where
  chars : Nat
  words : Nat
  sentences : Nat
  reliable : Bool

/-- The text of some units. -/
def unitsText (units : List SplitUnit) : List Char := joinWith '\n' (units.map SplitUnit.text)

/-- `_size` -/
def unitSize (units : List SplitUnit) : UnitSize where
  chars := (unitsText units).length
  words := (units.map SplitUnit.wordCount).sum
  sentences := (units.map SplitUnit.sentenceCount).sum
  reliable := units.all SplitUnit.wordGuardReliable

/-- `_SMALL_FRAGMENT_EXCEPTION_ROLES` -/
def smallFragmentExceptionRoles : List String :=
  ["FAQ", "WARNING", "LEGAL_DEFINITION", "DEFINITION", "NOTICE", "ALERT"]

/-- `_small_exception` -/
def smallException (units : List SplitUnit) : Bool :=
  (units.any fun unit => smallFragmentExceptionRoles.contains (upper (unit.role.getD ""))) ||
    units.any fun unit => unit.elementType = .table || unit.elementType = .codeBlock

/-- `_compatible_small_merge` -/
def compatibleSmallMerge (left right : List SplitUnit) : Bool :=
  match left.getLast?, right.head? with
  | some last, some first =>
    if (left ++ right).any fun unit => unit.elementType = .table || unit.elementType = .codeBlock
    then false
    else last.hierarchy.dropLast = first.hierarchy.dropLast
  | _, _ => false

/-- `_at_safe_boundary` -/
def atSafeBoundary (previous current : SplitUnit) : Bool :=
  if previous.elementType = .paragraph ∧ previous.text.getLast? = some ':' ∧
      LogicalSplitter.isListType current.elementType then false
  else previous.elementIds ≠ current.elementIds ||
    [ElementType.paragraph, .listItem, .table, .codeBlock].contains previous.elementType

/-- `_at_strong_boundary` -/
def atStrongBoundary (previous current : SplitUnit) : Bool :=
  current.elementType = .heading || previous.hierarchy ≠ current.hierarchy

/-- `_KK` -/
def kazakhChars : List Char := "ӘәҒғҚқҢңӨөҰұҮүҺһІі".toList

/-- `_CYR` -/
def isCyrillic (c : Char) : Bool :=
  ('А' ≤ c && c ≤ 'Я') || ('а' ≤ c && c ≤ 'я') || c = 'Ё' || c = 'ё' || kazakhChars.contains c

/-- `_LAT` -/
def isLatin (c : Char) : Bool := ('A' ≤ c && c ≤ 'Z') || ('a' ≤ c && c ≤ 'z')

/-- `_languages` -/
def unitLanguages (units : List SplitUnit) (text : List Char) : List String :=
  let hints := fromKeys (units.filterMap fun unit =>
    (unit.languageHint.filter fun hint => hint ≠ "").map fun hint =>
      String.ofList (SentenceBoundary.beforeHyphen (lower hint).toList))
  if hints ≠ [] then hints
  else
    let detected :=
      (if text.any kazakhChars.contains then ["kk"] else if text.any isCyrillic then ["ru"] else []) ++
        if text.any isLatin then ["en"] else []
    if detected = [] then ["und"] else detected

/-- `_fragment_type` -/
def unitsFragmentType (units : List SplitUnit) : FragmentType :=
  if units.all fun unit => unit.elementType = .table then .table
  else if units.all fun unit => LogicalSplitter.isListType unit.elementType then .list
  else if units.all fun unit => unit.elementType = .codeBlock then .code
  else if units.any fun unit => unit.elementType = .heading then .section
  else if units.all fun unit => unit.elementType = .paragraph then .paragraph
  else .other

namespace LogicalSplitter

variable (splitter : LogicalSplitter)

/-! ## Limits -/

/-- `_reaches_target` -/
def reachesTarget (units : List SplitUnit) : Bool :=
  splitter.profile.targetChars ≤ (unitSize units).chars ||
    ((unitSize units).reliable && splitter.profile.targetWords ≤ (unitSize units).words) ||
    splitter.profile.targetSentences ≤ (unitSize units).sentences

/-- `_exceeds_soft` -/
def exceedsSoft (units : List SplitUnit) : Bool :=
  splitter.profile.softMaxChars < (unitSize units).chars ||
    ((unitSize units).reliable && splitter.profile.softMaxWords < (unitSize units).words)

/-- `_exceeds_hard` -/
def exceedsHard (units : List SplitUnit) : Bool :=
  splitter.profile.hardMaxChars < (unitSize units).chars ||
    ((unitSize units).reliable && splitter.profile.hardMaxWords < (unitSize units).words) ||
    splitter.profile.hardMaxSentences < (unitSize units).sentences

/-! ## Groups -/

/-- The groups that ended, and the units of the one that did not. -/
structure SplitState where
  groups : List UnitGroup := []
  buffer : List SplitUnit := []

/-- `flush` -/
def flush (state : SplitState) (reason : String) (forced : Bool) : Except String SplitState :=
  if state.buffer = [] then .ok state
  else if splitter.exceedsHard state.buffer then .error "SPLITTER_HARD_GUARD_VIOLATION"
  else .ok ⟨state.groups ++ [⟨state.buffer, reason, forced⟩], []⟩

/-- A unit of its own section ends a group that is large enough. -/
def flushSection (state : SplitState) (unit : SplitUnit) : Except String SplitState :=
  if unit.elementType = .heading ∧ state.buffer ≠ [] ∧
      (splitter.profile.minChars ≤ (unitSize state.buffer).chars ∨
        smallException state.buffer = true) then
    splitter.flush state "SECTION_BOUNDARY" false
  else .ok state

/-- The reason to end the group in front of a unit, if there is one. -/
def boundaryReason (buffer : List SplitUnit) (unit : SplitUnit) : Option (String × Bool) :=
  if splitter.exceedsHard (buffer ++ [unit]) then some ("HARD_MAX", true)
  else if splitter.exceedsSoft (buffer ++ [unit]) ∧
      buffer.getLast?.any (fun previous => atSafeBoundary previous unit) = true then
    some ("SOFT_MAX_SAFE_BOUNDARY", false)
  else if splitter.reachesTarget buffer ∧
      buffer.getLast?.any (fun previous => atStrongBoundary previous unit) = true then
    some ("STRUCTURAL_BOUNDARY", false)
  else none

/-- One unit of the loop of `split`. -/
def pushUnit (state : SplitState) (unit : SplitUnit) : Except String SplitState :=
  if unit.text = [] then .ok state
  else if splitter.exceedsHard [unit] then .error "SPLITTER_UNIT_EXCEEDS_HARD_GUARD"
  else do
    let state ← splitter.flushSection state unit
    if state.buffer = [] then return { state with buffer := [unit] }
    match splitter.boundaryReason state.buffer unit with
    | some (reason, forced) => do
      let state ← splitter.flush state reason forced
      return { state with buffer := state.buffer ++ [unit] }
    | none => return { state with buffer := state.buffer ++ [unit] }

/-- The units of one element of the loop of `split`. -/
def pushUnits (state : SplitState) (units : Except String (List SplitUnit)) :
    Except String SplitState := do
  (← units).foldlM splitter.pushUnit state

/-- The groups before the small ones are merged. -/
def unitGroups (document : NormalizedDocument) : Except String (List UnitGroup) := do
  let state ← (splitter.iterUnits document).foldlM splitter.pushUnits {}
  let state ← splitter.flush state "DOCUMENT_END" false
  return state.groups

/-! ## Small groups -/

/-- A group below the lower limit that may be merged. -/
def isSmall (units : List SplitUnit) : Bool :=
  (unitSize units).chars < splitter.profile.minChars && !smallException units

/-- Two neighbours of which one is small may be merged. -/
def mayMerge (left right : List SplitUnit) : Bool :=
  compatibleSmallMerge left right && !splitter.exceedsHard (left ++ right)

/-- `SMALL_FRAGMENT_MERGE` -/
def mergeGroups (left right : UnitGroup) : UnitGroup :=
  ⟨left.units ++ right.units, "SMALL_FRAGMENT_MERGE", left.forced || right.forced⟩

/-- A group joins the last one that is complete, or stands by itself. -/
def placeGroup (out : List UnitGroup) (group : UnitGroup) : List UnitGroup :=
  match out.getLast? with
  | none => out ++ [group]
  | some previous =>
    if splitter.isSmall group.units ∧ !smallException previous.units ∧
        splitter.mayMerge previous.units group.units then
      out.dropLast ++ [mergeGroups previous group]
    else out ++ [group]

/-- The loop of `_consolidate_small_groups`. -/
def consolidateFrom : List UnitGroup → List UnitGroup → List UnitGroup
  | out, [] => out
  | out, [group] => splitter.placeGroup out group
  | out, group :: next :: rest =>
    if splitter.isSmall group.units ∧ !smallException next.units ∧
        splitter.mayMerge group.units next.units then
      consolidateFrom (out ++ [mergeGroups group next]) rest
    else consolidateFrom (splitter.placeGroup out group) (next :: rest)

/-- `_consolidate_small_groups` -/
def consolidateSmallGroups (groups : List UnitGroup) : List UnitGroup :=
  if groups.length < 2 then groups else splitter.consolidateFrom [] groups

/-! ## Fragments -/

/-- `asdict(profile)` -/
def profileDict (profile : SplitterProfile) : List (String × Json) := [
  ("profile_id", .str profile.profileId),
  ("version", .str profile.version),
  ("sentence_boundary_backend", .str profile.sentenceBoundaryBackend.value),
  ("min_chars", .int profile.minChars),
  ("target_chars", .int profile.targetChars),
  ("soft_max_chars", .int profile.softMaxChars),
  ("hard_max_chars", .int profile.hardMaxChars),
  ("target_words", .int profile.targetWords),
  ("soft_max_words", .int profile.softMaxWords),
  ("hard_max_words", .int profile.hardMaxWords),
  ("target_sentences", .int profile.targetSentences),
  ("hard_max_sentences", .int profile.hardMaxSentences),
  ("raw_text_overlap", .bool profile.rawTextOverlap),
  ("repeat_heading_context", .bool profile.repeatHeadingContext),
  ("repeat_parent_headings", .bool profile.repeatParentHeadings),
  ("repeat_table_header", .bool profile.repeatTableHeader),
  ("repeat_list_intro", .bool profile.repeatListIntro)]

/-- `_canonical_profile_hash` -/
def profileConfigHash : String :=
  splitter.digest.hexdigest (utf8 (Json.render false (.obj (profileDict splitter.profile))))

/-- The normalized text of a fragment. -/
def fragmentText (units : List SplitUnit) : List Char := stripChars (unitsText units)

/-- `source_ids` -/
def sourceIds (units : List SplitUnit) : List String :=
  fromKeys (units.flatMap SplitUnit.elementIds)

/-- The headings repeated in front of a fragment. -/
def hierarchyContext (units : List SplitUnit) : List (List Char) :=
  let hierarchy := (units.getLast?.map SplitUnit.hierarchy).getD []
  let beginsWithHeading := units.head?.any fun unit => unit.elementType = .heading
  let candidate := if beginsWithHeading then hierarchy.dropLast else hierarchy
  if splitter.profile.repeatHeadingContext = true ∧ hierarchy ≠ [] then
    if splitter.profile.repeatParentHeadings then candidate else candidate.getLast?.toList
  else []

/-- The other contexts repeated in front of a fragment. -/
def syntheticContexts (units : List SplitUnit) : List (List Char) :=
  (units.map SplitUnit.syntheticContext).filter fun context =>
    context ≠ [] ∧ ¬ context <:+: fragmentText units

/-- The parts of the context prefix. -/
def contextParts (units : List SplitUnit) : List (List Char) :=
  (splitter.hierarchyContext units ++ syntheticContexts units).filter (fun part => part ≠ [])
    |>.eraseDups

/-- `max((unit.continuation_index for unit in units), default=0)` -/
def continuationOf (units : List SplitUnit) : Nat :=
  (units.map SplitUnit.continuationIndex).foldl max 0

/-- `min(values) if values else None` -/
def minimumOf : List Nat → Option Nat
  | [] => none
  | n :: rest => some (rest.foldl min n)

/-- `max(values) if values else None` -/
def maximumOf : List Nat → Option Nat
  | [] => none
  | n :: rest => some (rest.foldl max n)

/-- `str(value if values else "")` -/
def rowName (row : Option Nat) : String := (row.map toString).getD ""

/-- The text a fragment's identifier is the digest of. -/
def identityPayload (document : NormalizedDocument) (units : List SplitUnit) : String :=
  unitSeparated [
    DeliveryIdentity.uuidText document.documentId,
    toString document.documentVersion,
    String.intercalate "," (sourceIds units),
    splitter.digest.hexdigest (utf8 (fragmentText units)),
    document.processingFingerprint,
    document.normalizerVersion,
    document.normalizerProfile,
    splitter.profile.version,
    splitter.profile.profileId,
    splitter.profileConfigHash,
    splitter.profile.sentenceBoundaryBackend.value,
    (unitsFragmentType units).value,
    toString (continuationOf units),
    rowName (minimumOf (units.filterMap SplitUnit.tableRowFrom)),
    rowName (maximumOf (units.filterMap SplitUnit.tableRowTo))]

/-- The smallest and the largest page. -/
def pageRange (units : List SplitUnit) : Option (Int × Int) :=
  match units.flatMap fun unit => unit.pageFrom.toList ++ unit.pageTo.toList with
  | [] => none
  | page :: rest => some (rest.foldl min page, rest.foldl max page)

/-- `_make_fragment` -/
def makeFragment (document : NormalizedDocument) (sequence : Nat) (group : UnitGroup) :
    LogicalFragment :=
  let units := group.units
  let forced := group.forced || units.any SplitUnit.forced
  let languages := unitLanguages units (fragmentText units)
  { fragmentId := splitter.digest.hexdigest
      (utf8 (splitter.identityPayload document units).toList)
    documentId := document.documentId
    documentVersion := document.documentVersion
    sequence := sequence
    fragmentType := unitsFragmentType units
    normalizedText := String.ofList (fragmentText units)
    contextPrefix := String.ofList (joinWith '\n' (splitter.contextParts units))
    hierarchy := ((units.getLast?.map SplitUnit.hierarchy).getD []).map String.ofList
    source := {
      elementIds := sourceIds units
      elementFrom := (sourceIds units).head?
      elementTo := (sourceIds units).getLast?
      pageFrom := (pageRange units).map Prod.fst
      pageTo := (pageRange units).map Prod.snd
      tableRowFrom := minimumOf (units.filterMap SplitUnit.tableRowFrom)
      tableRowTo := maximumOf (units.filterMap SplitUnit.tableRowTo) }
    statistics := {
      charCount := (fragmentText units).length
      wordCount := (units.map SplitUnit.wordCount).sum
      sentenceCount := (units.map SplitUnit.sentenceCount).sum }
    split := {
      reason := if forced then "FORCED_SPLIT" else group.reason
      forced := forced
      profile := splitter.profile.profileId
      splitterVersion := splitter.profile.version
      continuationIndex := continuationOf units }
    primaryLanguage := languages.headD "und"
    languages := languages
    mixedLanguage := 1 < languages.length
    metadata := {
      splitterProfileConfigHash := splitter.profileConfigHash
      roles := fromKeys (units.filterMap fun unit => unit.role.filter fun role => role ≠ "")
      sentenceBoundaryBackend := splitter.profile.sentenceBoundaryBackend.value
      wordCountReliable := units.all SplitUnit.wordGuardReliable } }

/-- The last check of a fragment. -/
def checkFragment (fragment : LogicalFragment) : Except String Unit := do
  if splitter.profile.hardMaxChars < fragment.statistics.charCount then
    throw "SPLITTER_FRAGMENT_EXCEEDS_HARD_GUARD:chars"
  if splitter.profile.hardMaxSentences < fragment.statistics.sentenceCount then
    throw "SPLITTER_FRAGMENT_EXCEEDS_HARD_GUARD:sentences"
  if fragment.metadata.wordCountReliable = true ∧
      splitter.profile.hardMaxWords < fragment.statistics.wordCount then
    throw "SPLITTER_FRAGMENT_EXCEEDS_HARD_GUARD:words"

/-- The groups the fragments are made of. -/
def finalGroups (document : NormalizedDocument) : Except String (List UnitGroup) := do
  return splitter.consolidateSmallGroups (← splitter.unitGroups document)

/-- `split` -/
def split (document : NormalizedDocument) : Except String (List LogicalFragment) := do
  let groups ← splitter.finalGroups document
  let fragments := groups.mapIdx fun index group => splitter.makeFragment document index group
  fragments.forM splitter.checkFragment
  return fragments

end LogicalSplitter

end AstraIndexator
