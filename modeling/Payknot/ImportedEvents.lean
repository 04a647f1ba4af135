import Payknot.DescriptionMirror
import Payknot.Traversals
import Payknot.Server

/-! What an imported event page yields (`import.go`): a walk over the page's JSON offers
every object's members to the fields of the response. -/
namespace Payknot.Import
open GoText Patterns
open Server (ImportLumaResponse)

structure Environment where
  lowerRune : Char → Char
  /-- `html.UnescapeString` -/
  unescapeString : String → String
  /-- Host and path of what `url.Parse` accepts. -/
  parseURL : String → Option (String × String)
  /-- `time.Parse` with a layout, formatted as RFC 3339. -/
  formatDate : (layout raw : String) → Option String

section Texts

def contains (text part : String) : Bool := text.toList.tails.any fun tail => part.toList.isPrefixOf tail

def hasSuffix (text ending : String) : Bool := ending.toList.isSuffixOf text.toList

/-- `strings.EqualFold` -/
def equalFold (text word : String) : Bool := matchFront (folded word) text.toList == some []

def normalizeDate (e : Environment) (raw : String) : String :=
  let raw := trimSpace raw
  if raw = "" then ""
  else if contains raw "T" && (contains raw "+" || hasSuffix raw "Z") then raw
  else
    let layouts := ["2006-01-02T15:04:05Z07:00", "2006-01-02T15:04:05-0700", "2006-01-02 15:04:05", "2006-01-02"]
    (layouts.findSome? fun layout => e.formatDate layout raw).getD raw

end Texts

section Descriptions

def descriptionCandidateScore (e : Environment) (value key : String) : Int :=
  if trimSpace value = "" then -1000
  else
    let score : Int := (trimSpace value).utf8ByteSize
    let score := score + match toLower e.lowerRune (trimSpace key) with
      | "description_mirror" => 12000
      | "event_jsonld_description" => 10000
      | "description_md" | "long_description_md" => 3000
      | "long_description" => 2000
      | "description" => 1000
      | "about" => 500
      | "bio_short" => 100
      | _ => 0
    let score := if contains value "\n- " || contains value "\n• " then score + 400 else score
    if contains value "\t" then score + 100 else score

abbrev Scored := String × Int

def applyBest (e : Environment) (best : Scored) (candidate key : String) : Scored :=
  if candidate = "" then best
  else
    let score := descriptionCandidateScore e candidate key
    if score > best.2 then (candidate, score) else best

def applyBestDescriptionCandidate (e : Environment) (best : Scored) (candidate key : String) : Scored :=
  applyBest e best (normalizeImportedDescription e.unescapeString candidate) key

def applyBestDescriptionHTMLCandidate (e : Environment) (best : Scored) (candidate key : String) : Scored :=
  applyBest e best (trimSpace candidate) key

end Descriptions

section Images

def imageCandidateScore (e : Environment) (url : String) : Int :=
  if url = "" then -1000
  else
    let low := toLower e.lowerRune url
    let score : Int := ["gallery-images", "width=300", "height=300", "fit=cover", "event-cover", "event_cover",
      "event-covers", "cover", "square", "share", "social"].foldl
        (fun score key => if contains low key then score + 20 else score) 0
    let score := ["avatar", "avatars", "profile", "user", "host", "speaker", "logo"].foldl
        (fun score key => if contains low key then score - 25 else score) score
    let score := if contains low "lumacdn.com/event-covers" then score + 40 else score
    let score := if contains low "lumacdn.com/gallery-images" then score + 120 else score
    let score := if contains low "width=300" && contains low "height=300" then score + 140 else score
    if hasSuffix low ".jpg" || hasSuffix low ".jpeg" || hasSuffix low ".png" || hasSuffix low ".webp" then score + 5
    else score

def normalizeLumaImageCandidate (e : Environment) (raw : String) : String :=
  let raw := trimSpace raw
  if raw = "" then ""
  else match e.parseURL raw with
    | none => raw
    | some (host, path) =>
        if !contains (toLower e.lowerRune host) "images.lumacdn.com" then raw
        else match path.toList.tails.find? fun tail => "/gallery-images/".toList.isPrefixOf tail with
          | some tail =>
              "https://images.lumacdn.com/cdn-cgi/image/format=auto,fit=cover,dpr=2,background=white,quality=75,width=300,height=300" ++
                String.ofList tail
          | none => raw

def applyBestImageCandidate (e : Environment) (current candidate : String) : String :=
  let candidate := normalizeLumaImageCandidate e candidate
  if candidate = "" then current
  else if imageCandidateScore e candidate > imageCandidateScore e (trimSpace current) then candidate else current

end Images

section Walk

def countKeys (v : Object) (keys : List String) : Nat := keys.countP (hasKey v)

def looksLikeHostProfile (v : Object) : Bool :=
  countKeys v ["api_id", "username", "avatar_url", "bio_short", "twitter_handle", "instagram_handle",
    "linkedin_handle", "youtube_handle", "tiktok_handle", "last_online_at"] ≥ 3

def looksLikeEventNode (v : Object) : Bool :=
  (match lookup v "@type" with
    | .str t => equalFold (trimSpace t) "Event"
    | _ => false) ||
  countKeys v ["start_at", "start_time", "startDate", "starts_at", "endDate", "event_api_id", "event_description",
    "event_description_md", "cover_url", "event_cover_url", "location_name", "ticket_types", "calendar_api_id"] ≥ 2

structure Extraction where
  out : ImportLumaResponse
  descriptionScore : Int
  descriptionHTMLScore : Int

variable (e : Environment) (v : Object) (x : Extraction)

def takeMirror : Extraction :=
  if looksLikeEventNode v && hasKey v "description_mirror" then
    let best := applyBestDescriptionHTMLCandidate e (x.out.descriptionHTML, x.descriptionHTMLScore)
      (renderLumaDescriptionMirrorHTML (lookup v "description_mirror")) "description_mirror"
    { x with out := { x.out with descriptionHTML := best.1 }, descriptionHTMLScore := best.2 }
  else x

def takeDescriptions : Extraction :=
  ["event_description_md", "event_description", "description_md", "long_description_md", "long_description",
    "description", "about"].foldl (fun x key =>
      if looksLikeHostProfile v then x
      else if !looksLikeEventNode v && !hasPrefix key "event_" then x
      else match lookup v key with
        | .str val =>
            let best := applyBestDescriptionCandidate e (x.out.description, x.descriptionScore) val key
            { x with out := { x.out with description := best.1 }, descriptionScore := best.2 }
        | _ => x) x

def takeDates : Extraction :=
  ["start_at", "start_time", "startDate", "starts_at"].foldl (fun x key =>
    match lookup v key with
    | .str val => if x.out.eventDate = "" then { x with out := { x.out with eventDate := normalizeDate e val } } else x
    | _ => x) x

def takeLocation (x : Extraction) (location : String) : Extraction :=
  if trimSpace x.out.location = "" then { x with out := { x.out with location := trimSpace location } } else x

def takeLocations : Extraction :=
  ["location_name", "location", "venue"].foldl (fun x key =>
    match lookup v key with
    | .str loc => takeLocation x loc
    | .obj loc => match lookup loc "name" with
        | .str name => takeLocation x name
        | _ => x
    | _ => x) x

def takeImages : Extraction :=
  ["cover_url", "cover_image_url", "event_cover_url", "social_image_url", "share_image_url", "image", "image_url",
    "thumbnail_url"].foldl (fun x key =>
      match lookup v key with
      | .str img =>
          { x with out := { x.out with eventImageURL := applyBestImageCandidate e x.out.eventImageURL img } }
      | _ => x) x

def hostNames (hosts : List Json) : List String :=
  hosts.filterMap fun host => match host with
    | .obj hm => match lookup hm "name" with
        | .str name => if trimSpace name ≠ "" then some (trimSpace name) else none
        | _ => none
    | _ => none

def takeHosts : Extraction :=
  match lookup v "hosts" with
  | .arr hosts =>
      if x.out.organizerName = "" ∧ hostNames hosts ≠ [] then
        { x with out := { x.out with organizerName := ", ".intercalate (hostNames hosts) } }
      else x
  | _ => x

def takeOrganizer : Extraction :=
  match lookup v "organizer" with
  | .obj org =>
      if x.out.organizerName = "" then match lookup org "name" with
        | .str name => { x with out := { x.out with organizerName := trimSpace name } }
        | _ => x
      else x
  | _ => x

def visit : Extraction :=
  takeOrganizer v (takeHosts v (takeImages e v (takeLocations v (takeDates e v (takeDescriptions e v (takeMirror e v x))))))

mutual
/-- The walk, through the members of each object in the order given. -/
def extractFromGenericJSON (e : Environment) : Json → Extraction → Extraction
  | .obj members, x => extractMembers e members (visit e members x)
  | .arr items, x => extractItems e items x
  | _, x => x
def extractItems (e : Environment) : List Json → Extraction → Extraction
  | [], x => x
  | child :: rest, x => extractItems e rest (extractFromGenericJSON e child x)
def extractMembers (e : Environment) : Object → Extraction → Extraction
  | [], x => x
  | (_, child) :: rest, x => extractMembers e rest (extractFromGenericJSON e child x)
end

end Walk

end Payknot.Import
