import Payknot.PasswordAccounts
import Payknot.Tracking

/-! What a refused account request leaves in `users`. Registration stores the account
before it mails the token, and Google's sign-in updates the account before it looks at
the provider and opens the session. -/
namespace Payknot.Accounts
open GoText Interleaving Machine

variable {e : Environment} {log later : Log Reply} {w after : World} {answer : Answer}

/-- The five requests that sign somebody up or in, or redeem a token. -/
def Request.authenticates : Request → Bool
  | .register _ | .login _ | .googleLogin _ | .verifyEmail _ | .resetPassword _ => true
  | _ => false

@[simp] def Answer.failed : Answer → Bool
  | .error _ _ => true
  | _ => false

/-- An INSERT or UPDATE that took effect on rows of `users`; it dates them as well. -/
@[simp] def writesUsers : Entry Reply → Bool
  | ⟨.sql (.insertPasswordUser _ _ _), .ok _⟩ | ⟨.sql (.insertGoogleUser _ _), .ok _⟩
  | ⟨.sql (.refreshGoogleUser _ _), .ok _⟩ | ⟨.sql (.setToken _ _ _), .ok _⟩ => true
  | ⟨.sql (.verifyEmail _), .ok affected⟩ | ⟨.sql (.resetPassword _ _), .ok affected⟩ => affected ≠ 0
  | _ => false

def WritesUsers (log : Log Reply) : Prop := log.any writesUsers = true

/-- A failed request leaves `users` as it was. -/
def SparesUsers (w after : World) (answer : Answer) (later : Log Reply) : Prop :=
  answer.failed = true → after.users = w.users ∧ ¬ WritesUsers later

@[simp] def registers : Entry Reply → Bool
  | ⟨.sql (.insertPasswordUser _ _ _), .ok _⟩ => true
  | _ => false

/-- The random source, the UPDATE or the mail service fails the token. -/
@[simp] def failsToken : Entry Reply → Bool
  | ⟨.randomHex _, none⟩ | ⟨.sql (.setToken _ _ _), .error _⟩ | ⟨.sendEmail _ _ _, .error _⟩ => true
  | _ => false

@[simp] def admits : Entry Reply → Bool
  | ⟨.sql (.insertGoogleUser _ _), .ok _⟩ | ⟨.sql (.refreshGoogleUser _ _), .ok _⟩ => true
  | _ => false

@[simp] def findsPassword : Entry Reply → Bool
  | ⟨.sql (.selectUserByEmail _), .ok (some row)⟩ => row.authProvider = .password
  | _ => false

@[simp] def failsSession : Entry Reply → Bool
  | ⟨.sql (.insertUserSession _ _ _), .error _⟩ => true
  | _ => false

/-- What the database, the mail service and the random source answered makes the request
fail after it wrote. -/
def Spoilt (e : Environment) : Request → Log Reply → Prop
  | .register _, log => log.any registers = true ∧ log.any failsToken = true
  | .googleLogin _, log => log.any admits = true ∧
      (log.any findsPassword = true ∨ log.any failsSession = true ∨ jwtSecret e = "")
  | _, _ => False

section Histories
variable {request : Request}

/-- The request ends in failure after a write exactly when it was spoilt. -/
def EndsSpoilt (e : Environment) (request : Request) (log : Log Reply) (answer : Answer) : Prop :=
  answer.failed = true ∧ WritesUsers log ↔ Spoilt e request log

theorem endsSpoilt_unwritten (unwritten : log.any writesUsers = false) (unspoilt : ¬ Spoilt e request log) :
    EndsSpoilt e request log answer := by
  constructor
  · rintro ⟨_, written⟩
    rw [WritesUsers, unwritten] at written
    cases written
  · exact fun spoilt => absurd spoilt unspoilt

def Opened (e : Environment) (log after : Log Reply) (answer : Answer) : Prop :=
  ∃ seen, after = seen ++ log ∧ seen.any writesUsers = false ∧ seen.any admits = false ∧
    seen.any findsPassword = false ∧
    (answer.failed = true ↔ seen.any failsSession = true ∨ jwtSecret e = "")

theorem along_opens (userID : Int64) (name email : String) (provider : Provider) :
    (issueSessionAndRespond e userID name email provider).Along (fun _ _ => True) (Opened e log) log := by
  unfold issueSessionAndRespond newUUID timeNow sql
  rw [Program.along_perform_bind]
  refine ⟨trivial, fun sessionID => ?_⟩
  rw [Program.along_perform_bind]
  refine ⟨trivial, fun now => ?_⟩
  rw [Program.along_perform_bind]
  refine ⟨trivial, fun inserted => ?_⟩
  cases inserted with
  | error fault =>
      rw [Program.along_pure]
      exact ⟨[_, _, _], rfl, rfl, rfl, rfl, by simp [Answer.failed, failsSession]⟩
  | ok done =>
      rw [Program.along_perform_bind]
      refine ⟨trivial, fun issuedAt => ?_⟩
      by_cases unset : jwtSecret e = ""
      · simp only [signJWT, if_pos unset]
        rw [Program.along_pure]
        exact ⟨[_, _, _, _], rfl, rfl, rfl, rfl, by simp [Answer.failed, unset]⟩
      · simp only [signJWT, if_neg unset]
        rw [Program.along_pure]
        exact ⟨[_, _, _, _], rfl, rfl, rfl, rfl, by simp [Answer.failed, failsSession, unset]⟩

def Mailed (log after : Log Reply) (sent : Except String Unit) : Prop :=
  ∃ seen, after = seen ++ log ∧ seen.any registers = false ∧
    ((∃ text, sent = .error text) ↔ seen.any failsToken = true)

theorem along_mails (kind : TokenKind) (userID : Int64) (email : String) :
    (createAndSendToken e kind userID email).Along (fun _ _ => True) (Mailed log) log := by
  unfold createAndSendToken randomHex timeNow sql sendEmail
  rw [Program.along_perform_bind]
  refine ⟨trivial, fun drawn => ?_⟩
  cases drawn with
  | none =>
      rw [Program.along_pure]
      exact ⟨[_], rfl, rfl, by simp [failsToken]⟩
  | some token =>
      rw [Program.along_perform_bind]
      refine ⟨trivial, fun now => ?_⟩
      rw [Program.along_perform_bind]
      refine ⟨trivial, fun stored => ?_⟩
      cases stored with
      | error fault =>
          rw [Program.along_pure]
          exact ⟨[_, _, _], rfl, rfl, by simp [failsToken]⟩
      | ok done =>
          rw [Program.along_perform_bind]
          refine ⟨trivial, fun sent => ?_⟩
          cases sent with
          | error fault =>
              rw [Program.along_pure]
              exact ⟨[_, _, _, _], rfl, rfl, by simp [failsToken]⟩
          | ok done =>
              rw [Program.along_pure]
              exact ⟨[_, _, _, _], rfl, rfl, by simp [failsToken]⟩

theorem along_registered (r : HttpRequest RegisterRequest) :
    (register e r).Along (fun _ _ => True) (EndsSpoilt e (.register r)) [] := by
  have refused {text status} : EndsSpoilt e (.register r) [] (.error text status) :=
    endsSpoilt_unwritten rfl (by simp [Spoilt])
  unfold register
  split
  · rw [Program.along_pure]
    exact refused
  · split
    · simp only
      split
      · rw [Program.along_pure]
        exact refused
      · unfold bcryptGenerate sql
        rw [Program.along_perform_bind]
        refine ⟨trivial, fun hash => ?_⟩
        cases hash with
        | none =>
            rw [Program.along_pure]
            exact endsSpoilt_unwritten rfl (by simp [Spoilt, registers])
        | some hash =>
            simp only
            rw [Program.along_perform_bind]
            refine ⟨trivial, fun inserted => ?_⟩
            cases inserted with
            | error fault =>
                simp only
                split <;> rw [Program.along_pure] <;>
                  exact endsSpoilt_unwritten rfl (by simp [Spoilt, registers])
            | ok userID =>
                -- From here on the account is stored: only the mail decides.
                refine (along_mails _ _ _).sequence ?_
                rintro later sent _ ⟨seen, rfl, -, fails⟩
                cases sent with
                | error text =>
                    rw [Program.along_pure]
                    have failed := fails.mp ⟨text, rfl⟩
                    simp [EndsSpoilt, Spoilt, WritesUsers, Answer.failed, writesUsers, registers, failed]
                | ok done =>
                    rw [Program.along_pure]
                    have sent : seen.any failsToken ≠ true := fun failed => by simpa using fails.mpr failed
                    simp [EndsSpoilt, Spoilt, Answer.failed, failsToken, sent]
    · rw [Program.along_pure]
      exact refused

theorem along_signedIn (r : HttpRequest LoginRequest) :
    (login e r).Along (fun _ _ => True) (EndsSpoilt e (.login r)) [] := by
  have refused {log answer} (unwritten : log.any writesUsers = false) : EndsSpoilt e (.login r) log answer :=
    endsSpoilt_unwritten unwritten (by simp [Spoilt])
  unfold login
  split
  · rw [Program.along_pure]
    exact refused rfl
  · split
    · simp only
      split
      · rw [Program.along_pure]
        exact refused rfl
      · unfold sql
        rw [Program.along_perform_bind]
        refine ⟨trivial, fun found => ?_⟩
        split
        · split
          · rw [Program.along_pure]
            exact refused rfl
          · split
            · rw [Program.along_pure]
              exact refused rfl
            · split
              · rw [Program.along_pure]
                exact refused rfl
              · refine (along_opens _ _ _ _).mono (fun _ _ _ => trivial) ?_
                rintro later answer ⟨seen, rfl, unwritten, -⟩
                exact refused (by simp [unwritten, writesUsers])
        · rw [Program.along_pure]
          exact refused rfl
    · rw [Program.along_pure]
      exact refused rfl

-- The end of a Google sign-in that opens a session, by what it did before.
theorem endsSpoilt_opened {r : HttpRequest GoogleLoginRequest} (own : log.any findsPassword = false)
    (open_before : log.any failsSession = false) (same : log.any writesUsers = log.any admits)
    (opened : Opened e log later answer)
    (settled : log.any admits = true) : EndsSpoilt e (.googleLogin r) later answer := by
  obtain ⟨seen, rfl, unwritten, unadmitted, unfound, failed⟩ := opened
  simp only [EndsSpoilt, Spoilt, WritesUsers, List.any_append, unwritten, unadmitted, unfound, own, open_before,
    same, settled, failed, Bool.or_false, Bool.false_or]
  simp

theorem along_googleSignedIn (r : HttpRequest GoogleLoginRequest) :
    (googleLogin e r).Along (fun _ _ => True) (EndsSpoilt e (.googleLogin r)) [] := by
  have refused {log answer} (unwritten : log.any writesUsers = false) (unadmitted : log.any admits = false) :
      EndsSpoilt e (.googleLogin r) log answer :=
    endsSpoilt_unwritten unwritten (by simp [Spoilt, unadmitted])
  unfold googleLogin
  split
  · rw [Program.along_pure]
    exact refused rfl rfl
  · split
    · simp only
      split
      · rw [Program.along_pure]
        exact refused rfl rfl
      · unfold googleTokenInfo sql
        rw [Program.along_perform_bind]
        refine ⟨trivial, fun reply => ?_⟩
        split
        · rw [Program.along_pure]
          exact refused rfl rfl
        · rw [Program.along_perform_bind]
          refine ⟨trivial, fun found => ?_⟩
          split
          · rw [Program.along_pure]
            exact refused rfl rfl
          · rw [Program.along_perform_bind]
            refine ⟨trivial, fun inserted => ?_⟩
            cases inserted with
            | error fault =>
                rw [Program.along_pure]
                exact refused rfl rfl
            | ok userID =>
                refine (along_opens _ _ _ _).mono (fun _ _ _ => trivial) ?_
                intro later answer opened
                exact endsSpoilt_opened rfl rfl rfl opened rfl
          · next row =>
            rw [Program.along_perform_bind]
            refine ⟨trivial, fun updated => ?_⟩
            by_cases own : row.authProvider = .password
            · simp only [if_pos own]
              rw [Program.along_pure]
              cases updated with
              | error fault => exact refused rfl rfl
              | ok done =>
                  simp [EndsSpoilt, Spoilt, WritesUsers, Answer.failed, writesUsers, admits, findsPassword, own]
            · simp only [if_neg own]
              refine (along_opens _ _ _ _).mono (fun _ _ _ => trivial) ?_
              intro later answer opened
              cases updated with
              | error fault =>
                  obtain ⟨seen, rfl, unwritten, unadmitted, -⟩ := opened
                  exact refused (by simp [unwritten, writesUsers]) (by simp [unadmitted, admits])
              | ok done =>
                  exact endsSpoilt_opened (by simp [findsPassword, own]) rfl rfl opened rfl
    · rw [Program.along_pure]
      exact refused rfl rfl

theorem along_emailVerified (r : HttpRequest VerifyEmailRequest) :
    (verifyEmail e r).Along (fun _ _ => True) (EndsSpoilt e (.verifyEmail r)) [] := by
  have refused {log answer} (unwritten : log.any writesUsers = false) : EndsSpoilt e (.verifyEmail r) log answer :=
    endsSpoilt_unwritten unwritten (by simp [Spoilt])
  unfold verifyEmail
  split
  · rw [Program.along_pure]
    exact refused rfl
  · split
    · simp only
      split
      · rw [Program.along_pure]
        exact refused rfl
      · unfold sql
        rw [Program.along_perform_bind]
        refine ⟨trivial, fun updated => ?_⟩
        cases updated with
        | error fault =>
            rw [Program.along_pure]
            exact refused rfl
        | ok affected =>
            by_cases none_found : affected = 0
            · simp only [if_pos none_found]
              rw [Program.along_pure]
              exact refused (by simp [writesUsers, none_found])
            · simp only [if_neg none_found]
              rw [Program.along_pure]
              simp [EndsSpoilt, Spoilt, Answer.failed]
    · rw [Program.along_pure]
      exact refused rfl

theorem along_passwordReset (r : HttpRequest ResetPasswordRequest) :
    (resetPassword e r).Along (fun _ _ => True) (EndsSpoilt e (.resetPassword r)) [] := by
  have refused {log answer} (unwritten : log.any writesUsers = false) :
      EndsSpoilt e (.resetPassword r) log answer :=
    endsSpoilt_unwritten unwritten (by simp [Spoilt])
  unfold resetPassword
  split
  · rw [Program.along_pure]
    exact refused rfl
  · split
    · simp only
      split
      · rw [Program.along_pure]
        exact refused rfl
      · unfold bcryptGenerate sql
        rw [Program.along_perform_bind]
        refine ⟨trivial, fun hashed => ?_⟩
        cases hashed with
        | none =>
            rw [Program.along_pure]
            exact refused rfl
        | some newHash =>
            simp only
            rw [Program.along_perform_bind]
            refine ⟨trivial, fun updated => ?_⟩
            cases updated with
            | error fault =>
                rw [Program.along_pure]
                exact refused rfl
            | ok affected =>
                by_cases none_found : affected = 0
                · simp only [if_pos none_found]
                  rw [Program.along_pure]
                  exact refused (by simp [writesUsers, none_found])
                · simp only [if_neg none_found]
                  rw [Program.along_pure]
                  simp [EndsSpoilt, Spoilt, Answer.failed]
    · rw [Program.along_pure]
      exact refused rfl

theorem along_authenticates (request : Request) (authenticates : request.authenticates = true) :
    (handler e request).Along (fun _ _ => True) (EndsSpoilt e request) [] := by
  cases request with
  | register r => exact along_registered r
  | login r => exact along_signedIn r
  | googleLogin r => exact along_googleSignedIn r
  | verifyEmail r => exact along_emailVerified r
  | resetPassword r => exact along_passwordReset r
  | _ => cases authenticates

end Histories
section Tables

theorem updateWhere_none {Row : Type} {selected : Row → Bool} (set : Row → Row) {rows : List Row}
    (unselected : rows.countP selected = 0) : updateWhere selected set rows = rows := by
  induction rows with
  | nil => rfl
  | cons row rest ih =>
      rw [List.countP_cons] at unselected
      have skipped : selected row ≠ true := by
        intro taken
        simp [taken] at unselected
      have tail := ih (by omega)
      unfold updateWhere at tail ⊢
      rw [List.map_cons, tail, if_neg skipped]

/-- An operation that wrote no row of `users` left the table as it was. -/
theorem Effect.spares {entry : Entry Reply} (effect : Effect w entry after) (unwritten : writesUsers entry ≠ true) :
    after.users = w.users := by
  cases effect with
  | quiet _ users => exact users
  | drawn => rfl
  | registered | signedUp | refreshed | stored => exact absurd rfl unwritten
  | verified hash | reset passwordHash hash =>
      apply updateWhere_none
      simpa only [writesUsers, ne_eq, decide_eq_true_eq, not_not] using unwritten

theorem spares_of_unwritten {program : Handler Answer} {choices : Choice → Prop}
    (traced : Traces ((machine e).performing choices) program w log answer after later)
    (unwritten : ¬ WritesUsers later) : after.users = w.users := by
  induction traced with
  | ret answer w log => rfl
  | @call op next w log reply middle answer after later performed traced ih =>
      obtain ⟨choice, _, executed⟩ := performed
      have member : (⟨op, reply⟩ : Entry Reply) ∈ later := traced.grows.subset List.mem_cons_self
      have quiet : writesUsers ⟨op, reply⟩ ≠ true :=
        fun writes => unwritten (List.any_eq_true.mpr ⟨_, member, writes⟩)
      rw [ih unwritten]
      exact (exec_effect executed).spares quiet

/-- Register, Login, GoogleLogin, VerifyEmail and ResetPassword, from any tables and with
any answers from outside: a failed request leaves `users` as it was exactly when it was
not spoilt. -/
theorem failed_request_spares_users_iff {request : Request} {choices : Choice → Prop}
    (authenticates : request.authenticates = true)
    (traced : Traces ((machine e).performing choices) (handler e request) w [] answer after later) :
    SparesUsers w after answer later ↔ ¬ Spoilt e request later := by
  have ends : EndsSpoilt e request later answer := by
    have tracked : (handler e request).Tracks ((machine e).performing choices) (fun answer _ later =>
        True ∧ EndsSpoilt e request later answer ∧ ∃ seen, later = seen ++ [] ∧ ∀ entry ∈ seen, True) w [] :=
      (along_authenticates request authenticates).tracks (fun _ _ => True) (fun _ => trivial)
        (fun _ _ => trivial) fun _ _ _ _ _ _ => trivial
    exact (tracked.traces traced).2.1
  constructor
  · intro spares spoilt
    obtain ⟨failed, written⟩ := ends.mpr spoilt
    exact (spares failed).2 written
  · intro unspoilt failed
    have unwritten : ¬ WritesUsers later := fun written => unspoilt (ends.mp ⟨failed, written⟩)
    exact ⟨spares_of_unwritten traced unwritten, unwritten⟩

end Tables

section Conflict

def unverifiedAlice : UserRow := ⟨1, "Mallory", aliceAddress, some alicePasswordHash, .password, false, none, none⟩

def registered : World := { opening.world with users := [unverifiedAlice], nextUserID := 2 }

def failing : Choice := { sound with fault := some ⟨"connection refused"⟩ }

def refusedUnwritten : Option (Answer × World × Log Reply) → Bool
  | some (.error _ status, _, later) => status == 409 && later.any findsPassword && !later.any admits
  | _ => false

/-- The sign-in finds a password account and its UPDATE fails: it is refused, and nothing changed. -/
theorem failed_request_spares_users_alice : ∃ (after : World) (text : String) (later : Log Reply),
    Traces ((machine environment).performing fun _ => True) (handler environment googleAlice) registered []
      (.error text 409) after later ∧ later.any findsPassword = true ∧
      SparesUsers registered after (.error text 409) later := by
  have played : refusedUnwritten ((handler environment googleAlice).playLogged (exec environment)
      [identified, sound, failing] registered []) = true := by decide +kernel
  unfold refusedUnwritten at played
  split at played
  · next text status after later ran =>
    simp only [Bool.and_eq_true, Bool.not_eq_true'] at played
    obtain ⟨⟨same, found⟩, unwritten⟩ := played
    obtain rfl := eq_of_beq same
    have traced : Traces ((machine environment).performing fun _ => True) (handler environment googleAlice)
        registered [] (.error text 409) after later :=
      Program.playLogged_traces (machine environment) (fun _ _ => trivial) ran
    refine ⟨after, text, later, traced, found, (failed_request_spares_users_iff rfl traced).mpr ?_⟩
    rintro ⟨admitted, _⟩
    rw [unwritten] at admitted
    cases admitted
  · cases played

def conflict : Option (Answer × World × Log Reply) :=
  (handler environment googleAlice).playLogged (exec environment) [identified, sound, sound] registered []

/-- The sign-in is refused with a 409, and the account has been renamed and verified. -/
def takenOver : Option (Answer × World × Log Reply) → Bool
  | some (.error _ status, after, _) =>
      status = 409 && after.users.all fun row => row.name ≠ "Mallory" && row.emailVerified
  | _ => false

theorem refused_google_sign_in_updates : ∃ (after : World) (text : String) (later : Log Reply),
    Traces ((machine environment).performing fun _ => True) (handler environment googleAlice) registered []
      (.error text 409) after later ∧ after.users ≠ registered.users := by
  have played : takenOver conflict = true := by decide +kernel
  unfold takenOver at played
  split at played
  · next text status after later ran =>
    simp only [Bool.and_eq_true, decide_eq_true_eq] at played
    obtain ⟨rfl, renamed⟩ := played
    refine ⟨after, text, later, Program.playLogged_traces (machine environment) (fun _ _ => trivial) ran, ?_⟩
    intro same
    rw [same] at renamed
    cases renamed
  · cases played

end Conflict
end Payknot.Accounts
