import Payknot.ImportedEvents

/-! The order of a walk through an imported page's JSON. Go fixes no order for the members
of an object; each field of the response takes the first or the best of its candidates. -/
namespace Payknot.Import
open GoText

variable {e : Environment} {v v' : Object}

section Candidates
variable (e : Environment) (v : Object)

def textOf : Json → Option String
  | .str value => some value
  | _ => none

def textAt (key : String) : Option String := textOf (lookup v key)

def nameOf : Json → Option String
  | .obj members => textAt members "name"
  | _ => none

def locationOf : Json → Option String
  | .str loc => some loc
  | json => nameOf json

def hostsOf : Json → List String
  | .arr hosts => hostNames hosts
  | _ => []

def scored (candidate key : String) : Option Scored :=
  if candidate = "" then none else some (candidate, descriptionCandidateScore e candidate key)

def ownHTML : List Scored :=
  if looksLikeEventNode v && hasKey v "description_mirror" then
    (scored e (trimSpace (renderLumaDescriptionMirrorHTML (lookup v "description_mirror"))) "description_mirror").toList
  else []

def ownDescriptions : List Scored :=
  ["event_description_md", "event_description", "description_md", "long_description_md", "long_description",
    "description", "about"].filterMap fun key =>
      if looksLikeHostProfile v then none
      else if !looksLikeEventNode v && !hasPrefix key "event_" then none
      else (textAt v key).bind fun val => scored e (normalizeImportedDescription e.unescapeString val) key

def ownDates : List String := ["start_at", "start_time", "startDate", "starts_at"].filterMap (textAt v)

def ownLocations : List String :=
  ["location_name", "location", "venue"].filterMap fun key => locationOf (lookup v key)

def ownImages : List String :=
  ["cover_url", "cover_image_url", "event_cover_url", "social_image_url", "share_image_url", "image", "image_url",
    "thumbnail_url"].filterMap fun key => (textAt v key).bind fun img =>
      if normalizeLumaImageCandidate e img = "" then none else some (normalizeLumaImageCandidate e img)

def ownHosts : List String :=
  if hostsOf (lookup v "hosts") = [] then [] else [", ".intercalate (hostsOf (lookup v "hosts"))]

def ownOrganizer : List String := (nameOf (lookup v "organizer")).toList.map trimSpace

def ownOrganizers : List String := ownHosts v ++ ownOrganizer v

end Candidates

section Parts

/-- A part of the state that a walk fills independently of the others. -/
structure Part (Value : Type) where
  get : Extraction → Value
  set : Extraction → Value → Extraction
  get_set : ∀ x value, get (set x value) = value
  set_set : ∀ x first second, set (set x first) second = set x second
  set_get : ∀ x, set x (get x) = x

def htmlPart : Part Scored where
  get x := (x.out.descriptionHTML, x.descriptionHTMLScore)
  set x best := { x with out := { x.out with descriptionHTML := best.1 }, descriptionHTMLScore := best.2 }
  get_set _ _ := rfl
  set_set _ _ _ := rfl
  set_get _ := rfl

def descriptionPart : Part Scored where
  get x := (x.out.description, x.descriptionScore)
  set x best := { x with out := { x.out with description := best.1 }, descriptionScore := best.2 }
  get_set _ _ := rfl
  set_set _ _ _ := rfl
  set_get _ := rfl

def datePart : Part String where
  get x := x.out.eventDate
  set x date := { x with out := { x.out with eventDate := date } }
  get_set _ _ := rfl
  set_set _ _ _ := rfl
  set_get _ := rfl

def locationPart : Part String where
  get x := x.out.location
  set x location := { x with out := { x.out with location := location } }
  get_set _ _ := rfl
  set_set _ _ _ := rfl
  set_get _ := rfl

def imagePart : Part String where
  get x := x.out.eventImageURL
  set x image := { x with out := { x.out with eventImageURL := image } }
  get_set _ _ := rfl
  set_set _ _ _ := rfl
  set_get _ := rfl

def organizerPart : Part String where
  get x := x.out.organizerName
  set x organizer := { x with out := { x.out with organizerName := organizer } }
  get_set _ _ := rfl
  set_set _ _ _ := rfl
  set_get _ := rfl

-- A loop over keys in which each key offers at most one candidate to a part.
theorem Part.foldl_offers {Candidate Value : Type} (part : Part Value) {step : Value → Candidate → Value}
    {body : Extraction → String → Extraction} {offer : String → Option Candidate}
    (offers : ∀ x key, body x key = match offer key with
      | some candidate => part.set x (step (part.get x) candidate)
      | none => x) (keys : List String) (x : Extraction) :
    keys.foldl body x = part.set x ((keys.filterMap offer).foldl step (part.get x)) := by
  induction keys generalizing x with
  | nil => exact (part.set_get x).symm
  | cons key rest ih =>
      rw [List.foldl_cons, ih, offers, List.filterMap_cons]
      cases offer key with
      | none => rfl
      | some candidate => rw [part.set_set, part.get_set, List.foldl_cons]

def better : Scored → Scored → Scored := improve Prod.snd Prod.snd id

def filled (text : String) : Bool := text != ""

def filledLocation (location : String) : Bool := trimSpace location != ""

def betterImage (e : Environment) : String → String → String :=
  improve (fun current => imageCandidateScore e (trimSpace current)) (imageCandidateScore e) id

theorem applyBest_eq (best : Scored) (candidate key : String) :
    applyBest e best candidate key = match scored e candidate key with
      | some found => better best found
      | none => best := by
  unfold applyBest scored
  by_cases blank : candidate = ""
  · rw [if_pos blank, if_pos blank]
  · rw [if_neg blank, if_neg blank]
    rfl

variable (x : Extraction)

theorem takeMirror_eq : takeMirror e v x = htmlPart.set x ((ownHTML e v).foldl better (htmlPart.get x)) := by
  unfold takeMirror ownHTML
  split
  · rw [applyBestDescriptionHTMLCandidate, applyBest_eq]
    cases scored e _ _ <;> rfl
  · rfl

theorem takeDescriptions_eq :
    takeDescriptions e v x = descriptionPart.set x ((ownDescriptions e v).foldl better (descriptionPart.get x)) := by
  apply descriptionPart.foldl_offers
  intro x key
  unfold textAt textOf
  split
  · rfl
  · split
    · rfl
    · cases lookup v key with
      | str val =>
          dsimp only
          rw [applyBestDescriptionCandidate, applyBest_eq, Option.bind_some]
          cases scored e _ _ <;> rfl
      | _ => rfl

theorem takeDates_eq :
    takeDates e v x = datePart.set x ((ownDates v).foldl (takeFirst filled (normalizeDate e)) (datePart.get x)) := by
  apply datePart.foldl_offers
  intro x key
  unfold textAt textOf
  cases lookup v key with
  | str val =>
      by_cases unset : x.out.eventDate = ""
      · simp [datePart, takeFirst, filled, unset]
      · simp [datePart, takeFirst, filled, unset]
  | _ => rfl

theorem takeLocation_eq (location : String) :
    takeLocation x location = locationPart.set x (takeFirst filledLocation trimSpace (locationPart.get x) location) := by
  unfold takeLocation
  by_cases unset : trimSpace x.out.location = ""
  · simp [locationPart, takeFirst, filledLocation, unset]
  · simp [locationPart, takeFirst, filledLocation, unset]

theorem takeLocations_eq :
    takeLocations v x = locationPart.set x ((ownLocations v).foldl (takeFirst filledLocation trimSpace) (locationPart.get x)) := by
  apply locationPart.foldl_offers
  intro x key
  unfold locationOf nameOf textAt textOf
  cases lookup v key with
  | str loc => exact takeLocation_eq x loc
  | obj loc =>
      dsimp only
      cases lookup loc "name" with
      | str name => exact takeLocation_eq x name
      | _ => rfl
  | _ => rfl

theorem takeImages_eq :
    takeImages e v x = imagePart.set x ((ownImages e v).foldl (betterImage e) (imagePart.get x)) := by
  apply imagePart.foldl_offers
  intro x key
  unfold textAt textOf
  cases lookup v key with
  | str img =>
      dsimp only [Option.bind_some]
      unfold applyBestImageCandidate
      by_cases blank : normalizeLumaImageCandidate e img = ""
      · simp only [if_pos blank]
      · simp only [if_neg blank]
        rfl
  | _ => rfl

theorem takeHosts_eq :
    takeHosts v x = organizerPart.set x ((ownHosts v).foldl (takeFirst filled id) (organizerPart.get x)) := by
  unfold takeHosts ownHosts hostsOf
  cases lookup v "hosts" with
  | arr hosts =>
      by_cases nobody : hostNames hosts = []
      · simp [nobody, organizerPart]
      · by_cases unset : x.out.organizerName = ""
        · simp [nobody, unset, organizerPart, takeFirst, filled]
        · simp [nobody, unset, organizerPart, takeFirst, filled]
  | _ => rfl

theorem takeOrganizer_eq :
    takeOrganizer v x = organizerPart.set x ((ownOrganizer v).foldl (takeFirst filled id) (organizerPart.get x)) := by
  unfold takeOrganizer ownOrganizer nameOf textAt textOf
  cases lookup v "organizer" with
  | obj org =>
      dsimp only
      by_cases unset : x.out.organizerName = ""
      · cases lookup org "name" with
        | str name => simp [unset, organizerPart, takeFirst, filled]
        | _ =>
            simp only [if_pos unset]
            rfl
      · cases lookup org "name" with
        | str name => simp [unset, organizerPart, takeFirst, filled]
        | _ =>
            simp only [if_neg unset]
            rfl
  | _ => rfl

theorem visit_parts : htmlPart.get (visit e v x) = (ownHTML e v).foldl better (htmlPart.get x) ∧
    descriptionPart.get (visit e v x) = (ownDescriptions e v).foldl better (descriptionPart.get x) ∧
    datePart.get (visit e v x) = (ownDates v).foldl (takeFirst filled (normalizeDate e)) (datePart.get x) ∧
    locationPart.get (visit e v x) =
      (ownLocations v).foldl (takeFirst filledLocation trimSpace) (locationPart.get x) ∧
    imagePart.get (visit e v x) = (ownImages e v).foldl (betterImage e) (imagePart.get x) ∧
    organizerPart.get (visit e v x) = (ownOrganizers v).foldl (takeFirst filled id) (organizerPart.get x) := by
  rw [visit, takeOrganizer_eq, takeHosts_eq, takeImages_eq, takeLocations_eq, takeDates_eq, takeDescriptions_eq,
    takeMirror_eq, ownOrganizers, List.foldl_append]
  exact ⟨rfl, rfl, rfl, rfl, rfl, rfl⟩

theorem visit_title : (visit e v x).out.title = x.out.title ∧ (visit e v x).out.warning = x.out.warning := by
  rw [visit, takeOrganizer_eq, takeHosts_eq, takeImages_eq, takeLocations_eq, takeDates_eq, takeDescriptions_eq,
    takeMirror_eq]
  exact ⟨rfl, rfl⟩

mutual
/-- A reading that an object's own candidates change step by step is changed so by all that
the walk meets. -/
theorem extract_read {Candidate Value : Type} {read : Extraction → Value} {step : Value → Candidate → Value}
    {own : Object → List Candidate} (visits : ∀ v x, read (visit e v x) = (own v).foldl step (read x)) :
    ∀ (json : Json) (x : Extraction),
      read (extractFromGenericJSON e json x) = (candidates own json).foldl step (read x)
  | .obj members, x => by
      rw [extractFromGenericJSON, extractMembers_read visits members, visits, candidates, List.foldl_append]
  | .arr items, x => extractItems_read visits items x
  | .null, _ | .bool _, _ | .num _, _ | .str _, _ => rfl
theorem extractItems_read {Candidate Value : Type} {read : Extraction → Value} {step : Value → Candidate → Value}
    {own : Object → List Candidate} (visits : ∀ v x, read (visit e v x) = (own v).foldl step (read x)) :
    ∀ (items : List Json) (x : Extraction),
      read (extractItems e items x) = (itemCandidates own items).foldl step (read x)
  | [], _ => rfl
  | item :: rest, x => by
      rw [extractItems, extractItems_read visits rest, extract_read visits item, itemCandidates, List.foldl_append]
theorem extractMembers_read {Candidate Value : Type} {read : Extraction → Value} {step : Value → Candidate → Value}
    {own : Object → List Candidate} (visits : ∀ v x, read (visit e v x) = (own v).foldl step (read x)) :
    ∀ (members : Object) (x : Extraction),
      read (extractMembers e members x) = (memberCandidates own members).foldl step (read x)
  | [], _ => rfl
  | (_, value) :: rest, x => by
      rw [extractMembers, extractMembers_read visits rest, extract_read visits value, memberCandidates,
        List.foldl_append]
end

end Parts

section Stability

def Insensitive {Value : Type} (read : Json → Value) : Prop :=
  ∀ json json', Distinct json → Reordered json json' → read json' = read json

theorem distinct_lookup (distinct : DistinctMembers v) (key : String) : Distinct (lookup v key) := by
  induction v with
  | nil => trivial
  | cons member rest ih =>
      by_cases here : member.1 = key
      · simpa [lookup, here] using distinct.1
      · simpa [lookup, here] using ih distinct.2

theorem Insensitive.lookup {Value : Type} {read : Json → Value} (insensitive : Insensitive read)
    (distinct : Distinct (.obj v)) (reordered : Reordered (.obj v) (.obj v')) (key : String) :
    read (lookup v' key) = read (GoText.lookup v key) :=
  insensitive _ _ (distinct_lookup distinct.2 key) (reordered.lookup distinct.1 key)

-- A reading that looks into no array and no object.
theorem insensitive_scalar {Value : Type} {read : Json → Value} (arrays : ∀ a b, read (.arr a) = read (.arr b))
    (objects : ∀ a b, read (.obj a) = read (.obj b)) : Insensitive read := by
  intro json json' _ reordered
  cases json with
  | arr items =>
      obtain ⟨items', rfl, _⟩ := reordered
      exact arrays items' items
  | obj members =>
      obtain ⟨_, members', rfl, _⟩ := reordered
      exact objects members' members
  | _ => rw [show json' = _ from reordered]

theorem insensitive_object {Value : Type} {read : Json → Value} (other : Value)
    (others : ∀ json, (∀ members, json ≠ .obj members) → read json = other)
    (objects : ∀ v v', Distinct (.obj v) → Reordered (.obj v) (.obj v') → read (.obj v') = read (.obj v)) :
    Insensitive read := by
  intro json json' distinct reordered
  cases json with
  | obj members =>
      obtain ⟨middle, members', rfl, inside⟩ := reordered
      exact objects members members' distinct ⟨middle, members', rfl, inside⟩
  | arr items =>
      obtain ⟨items', rfl, _⟩ := reordered
      rw [others (.arr items') (by simp), others (.arr items) (by simp)]
  | _ => rw [show json' = _ from reordered]

-- A reading of the items of arrays alone, item by item.
theorem reordered_filterMap {Value : Type} {read : Json → Option Value} (insensitive : Insensitive read)
    {items items' : List Json} (distinct : DistinctItems items) (reordered : ReorderedItems items items') :
    items'.filterMap read = items.filterMap read := by
  induction items generalizing items' with
  | nil => rw [show items' = [] from reordered]
  | cons item rest ih =>
      obtain ⟨item', rest', rfl, here, tail⟩ := reordered
      rw [List.filterMap_cons, List.filterMap_cons, insensitive _ _ distinct.1 here, ih distinct.2 tail]

theorem insensitive_textOf : Insensitive textOf := insensitive_scalar (fun _ _ => rfl) fun _ _ => rfl

theorem insensitive_stringOf : Insensitive stringOf := insensitive_scalar (fun _ _ => rfl) fun _ _ => rfl

theorem textAt_reordered (distinct : Distinct (.obj v)) (reordered : Reordered (.obj v) (.obj v')) (key : String) :
    textAt v' key = textAt v key := insensitive_textOf.lookup distinct reordered key

theorem insensitive_nameOf : Insensitive nameOf := by
  apply insensitive_object none
  · intro json other
    cases json with
    | obj members => exact absurd rfl (other members)
    | _ => rfl
  · exact fun v v' distinct reordered => textAt_reordered distinct reordered "name"

theorem insensitive_locationOf : Insensitive locationOf := by
  intro json json' distinct reordered
  have named := insensitive_nameOf _ _ distinct reordered
  have text := insensitive_textOf _ _ distinct reordered
  have split (json : Json) : locationOf json = (textOf json).or (nameOf json) := by cases json <;> rfl
  rw [split, split, named, text]

def hostName (host : Json) : Option String := (nameOf host).bind fun name =>
  if trimSpace name ≠ "" then some (trimSpace name) else none

theorem hostNames_eq (hosts : List Json) : hostNames hosts = hosts.filterMap hostName := by
  unfold hostNames hostName nameOf textAt textOf
  congr 1
  funext host
  cases host with
  | obj members =>
      dsimp only
      cases lookup members "name" <;> rfl
  | _ => rfl

theorem insensitive_hostsOf : Insensitive hostsOf := by
  intro json json' distinct reordered
  cases json with
  | obj members =>
      obtain ⟨middle, members', rfl, _⟩ := reordered
      rfl
  | arr items =>
      obtain ⟨items', rfl, inside⟩ := reordered
      change hostNames items' = hostNames items
      rw [hostNames_eq, hostNames_eq]
      apply reordered_filterMap ?_ distinct inside
      intro host host' distinct reordered
      rw [hostName, hostName, insensitive_nameOf _ _ distinct reordered]
  | _ => rw [show json' = _ from reordered]

section Mirrors

theorem hrefOf_reordered (distinct : Distinct (.obj v)) (reordered : Reordered (.obj v) (.obj v')) :
    hrefOf v' = hrefOf v := by
  have attrs : Insensitive fun
      | .obj attrs => stringOf (lookup attrs "href")
      | _ => "" := by
    apply insensitive_object ""
    · intro json other
      cases json with
      | obj members => exact absurd rfl (other members)
      | _ => rfl
    · exact fun v v' distinct reordered => insensitive_stringOf.lookup distinct reordered "href"
  exact attrs.lookup distinct reordered "attrs"

def levelOr : Json → Nat
  | .num n => (levelOf n).getD 2
  | _ => 2

def attrsLevel : Json → Nat
  | .obj attrs => levelOr (lookup attrs "level")
  | _ => 2

theorem headingLevel_attrs (members : Object) : headingLevel members = attrsLevel (lookup members "attrs") := by
  unfold headingLevel attrsLevel
  cases lookup members "attrs" <;> rfl

theorem headingLevel_reordered (distinct : Distinct (.obj v)) (reordered : Reordered (.obj v) (.obj v')) :
    headingLevel v' = headingLevel v := by
  have level : Insensitive levelOr := insensitive_scalar (fun _ _ => rfl) fun _ _ => rfl
  have attrs : Insensitive attrsLevel := by
    apply insensitive_object 2
    · intro json other
      cases json with
      | obj members => exact absurd rfl (other members)
      | _ => rfl
    · exact fun v v' distinct reordered => level.lookup distinct reordered "level"
  rw [headingLevel_attrs, headingLevel_attrs]
  exact attrs.lookup distinct reordered "attrs"

theorem renderImage_reordered (distinct : Distinct (.obj v)) (reordered : Reordered (.obj v) (.obj v')) :
    renderImage v' = renderImage v := by
  have attrs : Insensitive fun
      | .obj attrs =>
          if trimSpace (stringOf (lookup attrs "src")) ≠ "" then
            "<img src=\"" ++ escapeString (stringOf (lookup attrs "src")) ++ "\" alt=\"" ++
              escapeString (stringOf (lookup attrs "alt")) ++ "\"/>"
          else ""
      | _ => "" := by
    apply insensitive_object ""
    · intro json other
      cases json with
      | obj members => exact absurd rfl (other members)
      | _ => rfl
    · intro v v' distinct reordered
      dsimp only
      rw [insensitive_stringOf.lookup distinct reordered "src", insensitive_stringOf.lookup distinct reordered "alt"]
  exact attrs.lookup distinct reordered "attrs"

theorem renderMark_reordered (out : String) : Insensitive (renderMark out) := by
  apply insensitive_object out
  · intro json other
    cases json with
    | obj members => exact absurd rfl (other members)
    | _ => rfl
  · intro v v' distinct reordered
    simp only [renderMark]
    rw [insensitive_stringOf.lookup distinct reordered "type", hrefOf_reordered distinct reordered]

theorem renderMarks_reordered {marks marks' : List Json} (distinct : DistinctItems marks)
    (reordered : ReorderedItems marks marks') (out : String) :
    marks'.foldl renderMark out = marks.foldl renderMark out := by
  induction marks generalizing marks' out with
  | nil => rw [show marks' = [] from reordered]
  | cons mark rest ih =>
      obtain ⟨mark', rest', rfl, here, tail⟩ := reordered
      rw [List.foldl_cons, List.foldl_cons, renderMark_reordered out _ _ distinct.1 here, ih distinct.2 tail]

theorem renderText_reordered (distinct : Distinct (.obj v)) (reordered : Reordered (.obj v) (.obj v')) :
    renderText v' = renderText v := by
  have marked (out : String) : Insensitive fun
      | .arr marks => marks.foldl renderMark out
      | _ => out := by
    intro json json' distinct reordered
    cases json with
    | arr items =>
        obtain ⟨items', rfl, inside⟩ := reordered
        exact renderMarks_reordered distinct inside out
    | obj members =>
        obtain ⟨middle, members', rfl, _⟩ := reordered
        rfl
    | _ => rw [show json' = _ from reordered]
  have folds (v : Object) (out : String) : (marksOf v).foldl renderMark out = match lookup v "marks" with
      | .arr marks => marks.foldl renderMark out
      | _ => out := by
    unfold marksOf
    cases lookup v "marks" <;> rfl
  unfold renderText
  rw [insensitive_stringOf.lookup distinct reordered "text"]
  dsimp only
  rw [folds, folds]
  exact congrArg _ ((marked _).lookup distinct reordered "marks")

theorem renderNode_reordered (distinct : Distinct (.obj v)) (reordered : Reordered (.obj v) (.obj v'))
    (content : String) : renderNode v' content = renderNode v content := by
  unfold renderNode
  rw [insensitive_stringOf.lookup distinct reordered "type", headingLevel_reordered distinct reordered,
    renderImage_reordered distinct reordered, renderText_reordered distinct reordered]

mutual
theorem render_reordered : ∀ (json json' : Json), Distinct json → Reordered json json' →
    renderLumaDescriptionMirrorHTML json' = renderLumaDescriptionMirrorHTML json
  | .obj members, other, distinct, reordered => by
      obtain ⟨middle, members', rfl, inside, perm⟩ := reordered
      have moved : renderContent members' = renderContent middle := by
        rw [renderContent_eq, renderContent_eq, contentOf, contentOf,
          lookup_perm perm (inside.keys ▸ distinct.1) "content"]
      rw [renderLumaDescriptionMirrorHTML, renderLumaDescriptionMirrorHTML, moved,
        renderContent_reordered members middle distinct.2 inside]
      exact renderNode_reordered distinct ⟨middle, members', rfl, inside, perm⟩ _
  | .arr items, other, distinct, reordered => by
      obtain ⟨items', rfl, inside⟩ := reordered
      exact renderChildren_reordered items items' distinct inside
  | .null, other, _, reordered | .bool _, other, _, reordered | .num _, other, _, reordered
  | .str _, other, _, reordered => by rw [show other = _ from reordered]
theorem renderChildren_reordered : ∀ (items items' : List Json), DistinctItems items → ReorderedItems items items' →
    renderMirrorChildren items' = renderMirrorChildren items
  | [], items', _, reordered => by rw [show items' = [] from reordered]
  | item :: rest, items', distinct, reordered => by
      obtain ⟨item', rest', rfl, here, tail⟩ := reordered
      rw [renderMirrorChildren, renderMirrorChildren, render_reordered item item' distinct.1 here,
        renderChildren_reordered rest rest' distinct.2 tail]
theorem renderContent_reordered : ∀ (members middle : Object), DistinctMembers members →
    ReorderedMembers members middle → renderContent middle = renderContent members
  | [], middle, _, reordered => by rw [show middle = [] from reordered]
  | (key, .arr items) :: rest, middle, distinct, reordered => by
      obtain ⟨_, rest', rfl, ⟨items', rfl, inside⟩, tail⟩ := reordered
      rw [renderContent, renderContent, renderChildren_reordered items items' distinct.1 inside,
        renderContent_reordered rest rest' distinct.2 tail]
  | (key, .obj members) :: rest, middle, distinct, reordered => by
      obtain ⟨_, rest', rfl, ⟨_, members', rfl, _⟩, tail⟩ := reordered
      have later := renderContent_reordered rest rest' distinct.2 tail
      simp only [renderContent, later]
  | (key, .null) :: rest, middle, distinct, reordered | (key, .bool _) :: rest, middle, distinct, reordered
  | (key, .num _) :: rest, middle, distinct, reordered | (key, .str _) :: rest, middle, distinct, reordered => by
      obtain ⟨_, rest', rfl, here, tail⟩ := reordered
      have later := renderContent_reordered rest rest' distinct.2 tail
      rw [here]
      simp only [renderContent, later]
end

end Mirrors

theorem countKeys_reordered (reordered : Reordered (.obj v) (.obj v')) (keys : List String) :
    countKeys v' keys = countKeys v keys := by
  unfold countKeys
  congr 1
  funext key
  exact reordered.hasKey key

theorem looksLikeHostProfile_reordered (reordered : Reordered (.obj v) (.obj v')) :
    looksLikeHostProfile v' = looksLikeHostProfile v := by
  unfold looksLikeHostProfile
  rw [countKeys_reordered reordered]

theorem looksLikeEventNode_reordered (distinct : Distinct (.obj v)) (reordered : Reordered (.obj v) (.obj v')) :
    looksLikeEventNode v' = looksLikeEventNode v := by
  have typed : Insensitive fun
      | .str t => equalFold (trimSpace t) "Event"
      | _ => false := insensitive_scalar (fun _ _ => rfl) fun _ _ => rfl
  have same := typed.lookup distinct reordered "@type"
  unfold looksLikeEventNode
  rw [countKeys_reordered reordered]
  exact congrArg (· || _) same

theorem stable_ownHTML : Stable (ownHTML e) := by
  intro v v' distinct reordered
  unfold ownHTML
  have rendered := Insensitive.lookup render_reordered distinct reordered "description_mirror"
  rw [looksLikeEventNode_reordered distinct reordered, reordered.hasKey, rendered]

theorem stable_ownDescriptions : Stable (ownDescriptions e) := by
  intro v v' distinct reordered
  unfold ownDescriptions
  simp only [looksLikeEventNode_reordered distinct reordered, looksLikeHostProfile_reordered reordered,
    textAt_reordered distinct reordered]

theorem stable_ownDates : Stable ownDates := by
  intro v v' distinct reordered
  unfold ownDates
  rw [funext (textAt_reordered distinct reordered)]

theorem stable_ownLocations : Stable ownLocations := by
  intro v v' distinct reordered
  unfold ownLocations
  simp only [insensitive_locationOf.lookup distinct reordered]

theorem stable_ownImages : Stable (ownImages e) := by
  intro v v' distinct reordered
  unfold ownImages
  simp only [textAt_reordered distinct reordered]

theorem stable_ownOrganizers : Stable ownOrganizers := by
  intro v v' distinct reordered
  unfold ownOrganizers ownHosts ownOrganizer
  rw [insensitive_hostsOf.lookup distinct reordered, insensitive_nameOf.lookup distinct reordered]

end Stability

section Results
variable {payload : Json} {start : Extraction}

/-- The walk yields one response whatever order Go gives the members of each object. -/
def OrderIndependent (e : Environment) (payload : Json) (start : Extraction) : Prop :=
  ∀ one other, Reordered payload one → Reordered payload other →
    (extractFromGenericJSON e one start).out = (extractFromGenericJSON e other start).out

/-- All candidates with `q` that can be met first read alike. -/
def FirstsAgree {Candidate Value : Type} (own : Object → List Candidate) (q : Candidate → Bool)
    (read : Candidate → Value) (payload : Json) : Prop :=
  ∀ a ∈ firsts own q payload, ∀ b ∈ firsts own q payload, read a = read b

/-- The best-scored texts that are met first are one text, if one beats the start. -/
def BestAgree (own : Object → List Scored) (best : Scored) (payload : Json) : Prop :=
  (∀ c ∈ candidates own payload, c.2 ≤ best.2) ∨
    FirstsAgree own (reaches Prod.snd Prod.snd id (topScore Prod.snd Prod.snd best (candidates own payload)))
      Prod.fst payload

def imageLevel (e : Environment) (url : String) : Int := imageCandidateScore e (trimSpace url)

def topImages (e : Environment) (payload : Json) (start : Extraction) : List String :=
  firsts (ownImages e) (reaches (imageLevel e) (imageCandidateScore e) id
    (topScore (imageLevel e) (imageCandidateScore e) start.out.eventImageURL (candidates (ownImages e) payload))) payload

/-- If an image beats the start, each of them has the top score and trimming does not lower
it. -/
def ImagesClean (e : Environment) (payload : Json) (start : Extraction) : Prop :=
  (∃ c ∈ candidates (ownImages e) payload, imageLevel e start.out.eventImageURL < imageCandidateScore e c) →
    ∀ a ∈ topImages e payload start,
      imageCandidateScore e a =
        topScore (imageLevel e) (imageCandidateScore e) start.out.eventImageURL (candidates (ownImages e) payload) ∧
      topScore (imageLevel e) (imageCandidateScore e) start.out.eventImageURL (candidates (ownImages e) payload) ≤
        imageLevel e a

/-- Every field of the response is set before, or its possible first candidates agree. -/
structure Agreeing (e : Environment) (payload : Json) (start : Extraction) : Prop where
  html : BestAgree (ownHTML e) (htmlPart.get start) payload
  description : BestAgree (ownDescriptions e) (descriptionPart.get start) payload
  date : filled start.out.eventDate = true ∨
    FirstsAgree ownDates (fun raw => filled (normalizeDate e raw)) (normalizeDate e) payload
  location : filledLocation start.out.location = true ∨
    FirstsAgree ownLocations (fun location => filledLocation (trimSpace location)) trimSpace payload
  image : (∀ c ∈ candidates (ownImages e) payload, imageCandidateScore e c ≤ imageLevel e start.out.eventImageURL) ∨
    ∀ a ∈ topImages e payload start, ∀ b ∈ topImages e payload start, a = b
  organizer : filled start.out.organizerName = true ∨ FirstsAgree ownOrganizers filled id payload

theorem extract_title (json : Json) (x : Extraction) :
    ((extractFromGenericJSON e json x).out.title, (extractFromGenericJSON e json x).out.warning) =
      (x.out.title, x.out.warning) := by
  have untouched := @extract_read e Unit (String × String) (fun x => (x.out.title, x.out.warning)) (fun value _ => value)
    (fun _ => []) (fun v x => Prod.ext (visit_title x).1 (visit_title x).2) json x
  rw [untouched]
  exact List.foldl_fixed _

def Fixed {Value : Type} (e : Environment) (payload : Json) (start : Extraction) (read : Extraction → Value) : Prop :=
  ∀ one other, Reordered payload one → Reordered payload other →
    read (extractFromGenericJSON e one start) = read (extractFromGenericJSON e other start)

-- The response is the same exactly when each of its fields is.
theorem orderIndependent_iff : OrderIndependent e payload start ↔
    Fixed e payload start (fun x => (htmlPart.get x).1) ∧ Fixed e payload start (fun x => (descriptionPart.get x).1) ∧
    Fixed e payload start datePart.get ∧ Fixed e payload start locationPart.get ∧
    Fixed e payload start imagePart.get ∧ Fixed e payload start organizerPart.get := by
  constructor
  · intro same
    have fixed {Value : Type} (read : Server.ImportLumaResponse → Value) : Fixed e payload start fun x => read x.out :=
      fun one other reordered_one reordered_other => congrArg read (same one other reordered_one reordered_other)
    exact ⟨fixed (·.descriptionHTML), fixed (·.description), fixed (·.eventDate), fixed (·.location),
      fixed (·.eventImageURL), fixed (·.organizerName)⟩
  · rintro ⟨html, description, date, location, image, organizer⟩ one other reordered_one reordered_other
    have title := (extract_title (e := e) one start).trans (extract_title (e := e) other start).symm
    have html := html one other reordered_one reordered_other
    have description := description one other reordered_one reordered_other
    have date := date one other reordered_one reordered_other
    have location := location one other reordered_one reordered_other
    have image := image one other reordered_one reordered_other
    have organizer := organizer one other reordered_one reordered_other
    generalize extractFromGenericJSON e one start = x at *
    generalize extractFromGenericJSON e other start = y at *
    obtain ⟨⟨_, _, _, _, _, _, _, _⟩, _, _⟩ := x
    obtain ⟨⟨_, _, _, _, _, _, _, _⟩, _, _⟩ := y
    simp only [Prod.mk.injEq] at title
    obtain ⟨rfl, rfl⟩ := title
    dsimp only [htmlPart, descriptionPart, datePart, locationPart, imagePart, organizerPart] at *
    rw [html, description, date, location, image, organizer]

theorem fixed_best {part : Part Scored} {own : Object → List Scored} (stable : Stable own) (distinct : Distinct payload)
    (visits : ∀ v x, part.get (visit e v x) = (own v).foldl better (part.get x)) :
    Fixed e payload start (fun x => (part.get x).1) ↔ BestAgree own (part.get start) payload := by
  unfold Fixed
  simp only [extract_read visits]
  exact improve_same_iff stable distinct Prod.fst (part.get start) fun _ =>
    clean_of_kept stable distinct (part.get start) fun _ _ => rfl

theorem fixed_first {part : Part String} {own : Object → List String} {settled : String → Bool}
    {value : String → String} (stable : Stable own) (distinct : Distinct payload)
    (visits : ∀ v x, part.get (visit e v x) = (own v).foldl (takeFirst settled value) (part.get x))
    (unsettled : ∀ candidate, settled (value candidate) = false → value candidate = "") :
    Fixed e payload start part.get ↔ settled (part.get start) = true ∨
      FirstsAgree own (fun candidate => settled (value candidate)) value payload := by
  unfold Fixed
  simp only [extract_read visits]
  exact takeFirst_same_iff stable distinct unsettled (part.get start)

theorem fixed_image (distinct : Distinct payload) (clean : ImagesClean e payload start) :
    Fixed e payload start imagePart.get ↔
      (∀ c ∈ candidates (ownImages e) payload, imageCandidateScore e c ≤ imageLevel e start.out.eventImageURL) ∨
        ∀ a ∈ topImages e payload start, ∀ b ∈ topImages e payload start, a = b := by
  unfold Fixed
  have visits (v : Object) (x : Extraction) :
      imagePart.get (visit e v x) = (ownImages e v).foldl (betterImage e) (imagePart.get x) :=
    (visit_parts x).2.2.2.2.1
  simp only [extract_read visits]
  exact improve_same_iff stable_ownImages distinct id start.out.eventImageURL clean

theorem imagesClean_of_trimmed (distinct : Distinct payload)
    (trimmed : ∀ c ∈ candidates (ownImages e) payload, trimSpace c = c) : ImagesClean e payload start := by
  intro _
  apply clean_of_kept stable_ownImages distinct
  intro c member
  exact congrArg (imageCandidateScore e) (trimmed c member)

/-- The walk yields one response in every order where the candidates agree and no padded
image reaches the top; where none does, only there. -/
theorem import_order_independent_iff (distinct : Distinct payload) :
    (Agreeing e payload start ∧ ImagesClean e payload start → OrderIndependent e payload start) ∧
      (ImagesClean e payload start → OrderIndependent e payload start → Agreeing e payload start) := by
  have html : Fixed e payload start (fun x => (htmlPart.get x).1) ↔ _ :=
    fixed_best stable_ownHTML distinct fun v x => (visit_parts x).1
  have description : Fixed e payload start (fun x => (descriptionPart.get x).1) ↔ _ :=
    fixed_best stable_ownDescriptions distinct fun v x => (visit_parts x).2.1
  have date : Fixed e payload start datePart.get ↔ _ :=
    fixed_first stable_ownDates distinct (fun v x => (visit_parts x).2.2.1) (by simp [filled])
  have location : Fixed e payload start locationPart.get ↔ _ :=
    fixed_first stable_ownLocations distinct (fun v x => (visit_parts x).2.2.2.1) (by simp [filledLocation])
  have organizer : Fixed e payload start organizerPart.get ↔ _ :=
    fixed_first stable_ownOrganizers distinct (fun v x => (visit_parts x).2.2.2.2.2) (by simp [filled])
  have image := @fixed_image e payload start distinct
  rw [orderIndependent_iff]
  constructor
  · rintro ⟨agreeing, clean⟩
    exact ⟨html.mpr agreeing.html, description.mpr agreeing.description, date.mpr agreeing.date,
      location.mpr agreeing.location, (image clean).mpr agreeing.image, organizer.mpr agreeing.organizer⟩
  · rintro clean ⟨same_html, same_description, same_date, same_location, same_image, same_organizer⟩
    exact ⟨html.mp same_html, description.mp same_description, date.mp same_date, location.mp same_location,
      (image clean).mp same_image, organizer.mp same_organizer⟩

section Pages

def plainPage : Environment where
  lowerRune := Char.toLower
  unescapeString := id
  parseURL := fun _ => none
  formatDate := fun _ _ => none

def blank : Extraction := ⟨⟨"", "", "", "", "", "", "", ""⟩, -1000, -1000⟩

def june : Json := .obj [("start_at", .str "2025-06-01T18:00:00Z"), ("name", .str "Meetup")]

def july : Json := .obj [("start_at", .str "2025-07-01T18:00:00Z"), ("name", .str "Meetup")]

def meetupPage : Json :=
  .obj [("event", june), ("hosts", .arr [.obj [("name", .str "Ann")], .obj [("name", .str " ")]]), ("locale", .str "en")]

theorem import_order_independent_meetup : OrderIndependent plainPage meetupPage blank := by
  have distinct : Distinct meetupPage := by
    simp [meetupPage, june, Distinct, DistinctMembers, DistinctItems]
  have no_image : candidates (ownImages plainPage) meetupPage = [] := by decide +kernel
  have no_html : candidates (ownHTML plainPage) meetupPage = [] := by decide +kernel
  have no_description : candidates (ownDescriptions plainPage) meetupPage = [] := by decide +kernel
  have no_location : firsts ownLocations (fun location => filledLocation (trimSpace location)) meetupPage = [] := by
    decide +kernel
  have one_date : firsts ownDates (fun raw => filled (normalizeDate plainPage raw)) meetupPage =
      ["2025-06-01T18:00:00Z"] := by decide +kernel
  have one_organizer : firsts ownOrganizers filled meetupPage = ["Ann"] := by decide +kernel
  have agreeing : Agreeing plainPage meetupPage blank := by
    constructor
    · exact .inl (by simp [no_html])
    · exact .inl (by simp [no_description])
    · exact .inr (by simp [FirstsAgree, one_date])
    · exact .inr (by simp [FirstsAgree, no_location])
    · exact .inl (by simp [no_image])
    · exact .inr (by simp [FirstsAgree, one_organizer])
  have clean : ImagesClean plainPage meetupPage blank :=
    imagesClean_of_trimmed distinct (by simp [no_image])
  exact (import_order_independent_iff distinct).1 ⟨agreeing, clean⟩

/-- Two events on a page: the one Go walks through first gives the date. -/
theorem import_depends_on_order : ∃ (e : Environment) (payload one other : Json) (start : Extraction),
    Distinct payload ∧ Reordered payload one ∧ Reordered payload other ∧
    (extractFromGenericJSON e one start).out.eventDate ≠ (extractFromGenericJSON e other start).out.eventDate := by
  refine ⟨plainPage, .obj [("june", june), ("july", july)], .obj [("june", june), ("july", july)],
    .obj [("july", july), ("june", june)], blank, ?_, reordered_refl _, ?_, by decide +kernel⟩
  · simp [june, july, Distinct, DistinctMembers]
  · exact ⟨_, _, rfl, reorderedMembers_refl _, .swap _ _ []⟩

end Pages
end Results

end Payknot.Import
