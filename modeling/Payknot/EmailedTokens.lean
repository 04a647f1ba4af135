import Payknot.AccountHistory
import Payknot.Agents
import Payknot.Effects
import Mathlib.Data.List.Nodup
import Mathlib.Logic.Equiv.Basic

/-! Emailed tokens. A token is drawn by one request, its hash is stored once, for one
user and one of the two columns; redeeming it clears the column, and so does storing the
next one. The hash function is assumed injective. -/
namespace Payknot.Accounts
open GoText Interleaving Machine

variable {e : Environment} {cfg after : Service} {label : ServiceLabel} {kind : TokenKind} {token : String}
  {id : Int64} {w : World}

def Drew (token : String) (thread : ServiceThread) : Prop := thread.log.Saw (.randomHex 32) (some token)

def StoredFor (e : Environment) (kind : TokenKind) (token : String) (id : Int64) (expiresAt : Time)
    (thread : ServiceThread) : Prop :=
  thread.log.Saw (.sql (.setToken kind ⟨hashToken e token, expiresAt⟩ id)) (.ok ())

def Redeemed (e : Environment) (kind : TokenKind) (token : String) (thread : ServiceThread) : Prop :=
  thread.request.Presents kind token ∧ ∃ entry ∈ thread.log, Redeems kind (hashToken e token) entry

structure Fresh (cfg : Service) : Prop where
  threads : cfg.threads = []
  users : cfg.world.users = []

section Hashes

theorem hashToken_injective (injective : Function.Injective e.sha256) {token token' : String}
    (same : hashToken e token = hashToken e token') : token = token' := by
  have bytes := injective (hexEncode_injective same)
  exact String.toByteArray_inj.mp (ByteArray.ext (Array.toList_inj.mp bytes))

end Hashes

section Tables

structure Numbered (w : World) : Prop where
  distinct : (w.users.map UserRow.id).Nodup
  below : ∀ row ∈ w.users, row.id.toInt < w.nextUserID

theorem Numbered.same (numbered : Numbered w) {row row' : UserRow} (member : row ∈ w.users)
    (member' : row' ∈ w.users) (same : row.id = row'.id) : row = row' :=
  List.inj_on_of_nodup_map numbered.distinct member member' same

theorem Numbered.addUser (numbered : Numbered w) (fits : w.nextUserID < 2 ^ 63) (name email : String)
    (passwordHash : Option String) (provider : Provider) (verified : Bool) :
    Numbered (w.addUser name email passwordHash provider verified) := by
  have new : w.newID.toInt = w.nextUserID := Int64.toInt_ofNat_of_lt fits
  constructor
  · rw [World.addUser, List.map_append, List.nodup_append]
    refine ⟨numbered.distinct, by simp, ?_⟩
    intro id among other only same
    obtain ⟨row, member, rfl⟩ := List.mem_map.mp among
    have old := numbered.below row member
    simp only [List.map_cons, List.map_nil, List.mem_singleton] at only
    rw [same, only, new] at old
    omega
  · intro row member
    simp only [World.addUser, List.mem_append, List.mem_singleton] at member ⊢
    rcases member with old | rfl
    · have := numbered.below row old
      omega
    · simp only
      omega

theorem Numbered.updateUsers (numbered : Numbered w) (selected : UserRow → Bool) {set : UserRow → UserRow}
    (keeps : ∀ row, (set row).id = row.id) : Numbered (w.updateUsers selected set) := by
  have ids : (w.updateUsers selected set).users.map UserRow.id = w.users.map UserRow.id := by
    rw [World.updateUsers, updateWhere, List.map_map]
    apply List.map_congr_left
    intro row _
    simp only [Function.comp_apply]
    split
    · exact keeps row
    · rfl
  constructor
  · rw [ids]
    exact numbered.distinct
  · intro row member
    obtain ⟨old, among, same⟩ := List.mem_map.mp (ids ▸ List.mem_map_of_mem member)
    rw [← same]
    exact numbered.below old among

theorem store_id (row : UserRow) (kind : TokenKind) (token : Option StoredToken) :
    (row.store kind token).id = row.id := by
  cases kind <;> rfl

theorem Numbered.effect {entry : Entry Reply} {w' : World} (numbered : Numbered w)
    (effect : Effect w entry w') : Numbered w' := by
  cases effect with
  | quiet _ users nextUserID =>
      constructor
      · rw [users]
        exact numbered.distinct
      · rw [users, nextUserID]
        exact numbered.below
  | drawn => exact ⟨numbered.distinct, numbered.below⟩
  | registered fits | signedUp fits => exact numbered.addUser fits _ _ _ _ _
  | refreshed | verified | reset => exact numbered.updateUsers _ fun _ => rfl
  | stored kind token => exact numbered.updateUsers _ fun row => store_id row kind _

/-- The WHERE clause of the UPDATE that redeems this kind of token. -/
def UserRow.redeemable (row : UserRow) : TokenKind → String → Time → Bool
  | .verification => row.verifiable
  | .reset => row.resettable

/-- A token column after an operation: as it was, and not just redeemed, or just stored. -/
theorem stored_after {entry : Entry Reply} {w' : World} (effect : Effect w entry w') {row : UserRow}
    (member : row ∈ w'.users) {held : StoredToken} (has : row.stored kind = some held) :
    (∃ old ∈ w.users, old.id = row.id ∧ old.stored kind = some held ∧
      (∀ token, entry ≠ ⟨.sql (.setToken kind token row.id), .ok ()⟩) ∧
      ∀ hash, Redeems kind hash entry → old.redeemable kind hash w.now = false) ∨
      entry = ⟨.sql (.setToken kind held row.id), .ok ()⟩ := by
  -- Only the two redeeming statements redeem.
  have redeems_none {entry : Entry Reply} {old : UserRow} (statement : ∀ hash affected, entry ≠
        ⟨.sql (.verifyEmail hash), .ok affected⟩)
      (statement' : ∀ passwordHash hash affected, entry ≠ ⟨.sql (.resetPassword passwordHash hash), .ok affected⟩) :
      ∀ hash, Redeems kind hash entry → old.redeemable kind hash w.now = false := by
    rintro hash ⟨affected, _, shape⟩
    cases kind with
    | verification => exact absurd shape (statement hash affected)
    | reset =>
        obtain ⟨passwordHash, shape⟩ := shape
        exact absurd shape (statement' passwordHash hash affected)
  cases effect with
  | quiet writes_none users =>
      refine .inl ⟨row, users ▸ member, rfl, has, ?_, redeems_none ?_ ?_⟩
      · rintro token rfl
        exact writes_none trivial
      · rintro hash affected rfl
        exact writes_none trivial
      · rintro passwordHash hash affected rfl
        exact writes_none trivial
  | drawn => exact .inl ⟨row, member, rfl, has, nofun, redeems_none nofun nofun⟩
  | registered | signedUp =>
      rcases List.mem_append.mp member with old | new
      · exact .inl ⟨row, old, rfl, has, nofun, redeems_none nofun nofun⟩
      · rw [List.mem_singleton.mp new] at has
        cases kind <;> cases has
  | refreshed name id =>
      obtain ⟨old, among, ⟨_, rfl⟩ | ⟨_, rfl⟩⟩ := mem_updateWhere member
      · refine .inl ⟨old, among, rfl, ?_, nofun, redeems_none nofun nofun⟩
        cases kind <;> exact has
      · exact .inl ⟨row, among, rfl, has, nofun, redeems_none nofun nofun⟩
  | stored kind' token id =>
      obtain ⟨old, among, ⟨named, rfl⟩ | ⟨other, rfl⟩⟩ := mem_updateWhere member
      · have named := of_decide_eq_true named
        rw [store_id]
        by_cases same : kind' = kind
        · subst same
          have held : held = token := by
            cases kind' <;> cases has <;> rfl
          rw [held, named]
          exact .inr rfl
        · refine .inl ⟨old, among, rfl, ?_, ?_, redeems_none nofun nofun⟩
          · cases kind <;> cases kind' <;> first | exact has | exact absurd rfl same
          · rintro token ⟨⟩
            exact same rfl
      · refine .inl ⟨row, among, rfl, has, ?_, redeems_none nofun nofun⟩
        rintro token ⟨⟩
        simp at other
  | verified hash =>
      obtain ⟨old, among, ⟨_, rfl⟩ | ⟨other, rfl⟩⟩ := mem_updateWhere member
      · cases kind with
        | verification => cases has
        | reset =>
            refine .inl ⟨old, among, rfl, has, nofun, ?_⟩
            rintro _ ⟨_, _, _, ⟨⟩⟩
      · refine .inl ⟨row, among, rfl, has, nofun, ?_⟩
        cases kind with
        | verification =>
            rintro _ ⟨_, _, ⟨⟩⟩
            exact other
        | reset => rintro _ ⟨_, _, _, ⟨⟩⟩
  | reset passwordHash hash =>
      obtain ⟨old, among, ⟨_, rfl⟩ | ⟨other, rfl⟩⟩ := mem_updateWhere member
      · cases kind with
        | verification =>
            refine .inl ⟨old, among, rfl, has, nofun, ?_⟩
            rintro _ ⟨_, _, ⟨⟩⟩
        | reset => cases has
      · refine .inl ⟨row, among, rfl, has, nofun, ?_⟩
        cases kind with
        | verification => rintro _ ⟨_, _, ⟨⟩⟩
        | reset =>
            rintro _ ⟨_, _, _, ⟨⟩⟩
            exact other

-- An UPDATE that redeems a hash finds the user whose column has it.
theorem redeemed_row {hash : String} {entry : Entry Reply} {w' : World} (effect : Effect w entry w')
    (redeems : Redeems kind hash entry) :
    ∃ row ∈ w.users, row.redeemable kind hash w.now = true ∧
      ∃ held, row.stored kind = some held ∧ held.hash = hash ∧ w.now < held.expiresAt := by
  have holds {row : UserRow} (found : row.holds kind hash w.now = true) :
      ∃ held, row.stored kind = some held ∧ held.hash = hash ∧ w.now < held.expiresAt := by
    simpa [UserRow.holds, Option.any_eq_true] using found
  obtain ⟨affected, some_row, shape⟩ := redeems
  cases kind with
  | verification =>
      cases shape
      cases effect with
      | quiet writes_none => exact (writes_none trivial).elim
      | verified =>
          obtain ⟨row, member, found⟩ := List.countP_pos_iff.mp some_row
          exact ⟨row, member, found, holds (Bool.and_eq_true_iff.mp found).1⟩
  | reset =>
      obtain ⟨passwordHash, rfl⟩ := shape
      cases effect with
      | quiet writes_none => exact (writes_none trivial).elim
      | reset =>
          obtain ⟨row, member, found⟩ := List.countP_pos_iff.mp some_row
          exact ⟨row, member, found, holds (Bool.and_eq_true_iff.mp found).1⟩

end Tables

section Book

structure Book (e : Environment) (cfg : Service) : Prop where
  disciplined : Disciplined (Issues e) (Ends e) cfg
  justified : Justified (Issues e) cfg
  numbered : Numbered cfg.world
  drawn : ∀ thread ∈ cfg.threads, ∀ token, Drew token thread → token ∈ cfg.world.drawn
  alone : ∀ (i j : Nat) (first second : ServiceThread) token, cfg.threads[i]? = some first →
    cfg.threads[j]? = some second → Drew token first → Drew token second → i = j
  issued : ∀ row ∈ cfg.world.users, ∀ kind held, row.stored kind = some held → ∃ thread ∈ cfg.threads,
    thread.log.Saw (.sql (.setToken kind held row.id)) (.ok ())

theorem Fresh.book (start : Fresh cfg) : Book e cfg := by
  constructor
  · intro thread member
    rw [start.threads] at member
    cases member
  · intro thread member
    rw [start.threads] at member
    cases member
  · constructor
    · rw [start.users]
      exact .nil
    · intro row member
      rw [start.users] at member
      cases member
  · intro thread member
    rw [start.threads] at member
    cases member
  · intro i j first second token at_i
    rw [start.threads] at at_i
    cases at_i
  · intro row member
    rw [start.users] at member
    cases member

theorem drew_after (stepped : (machine e).next cfg label = some after) {index : Nat}
    {current : ServiceThread} (found : after.threads[index]? = some current) (drew : Drew token current) :
    (∃ thread, cfg.threads[index]? = some thread ∧ Drew token thread) ∨
      ((∃ choice, label = .step index choice) ∧ token ∉ cfg.world.drawn ∧ token ∈ after.world.drawn) := by
  rcases saw_after stepped found drew with ⟨thread, old, _, saw⟩ |
    ⟨choice, thread, rest, same, _, _, executed, _⟩
  · exact .inl ⟨thread, old, saw⟩
  · refine .inr ⟨⟨choice, same⟩, ?_⟩
    have ran : exec e choice (.randomHex 32) cfg.world = some (some token, after.world) := executed
    generalize after.world = w' at ran
    cases exec_effect ran with
    | quiet writes_none => exact (writes_none trivial).elim
    | drawn fresh => exact ⟨fresh, List.mem_cons_self⟩

theorem drawn_next (stepped : (machine e).next cfg label = some after) {text : String}
    (member : text ∈ cfg.world.drawn) : text ∈ after.world.drawn := by
  rcases next_cases stepped with ⟨_, _, rfl⟩ | ⟨_, _, _, occurred, rfl⟩ |
    ⟨_, _, _, op, _, reply, world, _, _, _, executed, rfl⟩
  · exact member
  · cases occurred
    exact member
  · have effect := exec_effect executed
    generalize (⟨op, reply⟩ : Entry Reply) = entry at effect
    cases effect with
    | quiet _ _ _ drawn => exact drawn ▸ member
    | drawn => exact List.mem_cons_of_mem _ member
    | _ => exact member

theorem Book.next (book : Book e cfg) (stepped : (machine e).next cfg label = some after) : Book e after := by
  constructor
  · exact disciplined_next along_handler book.disciplined stepped
  · exact justified_next book.disciplined book.justified stepped
  · rcases next_cases stepped with ⟨_, _, rfl⟩ | ⟨_, _, _, occurred, rfl⟩ |
      ⟨_, _, _, _, _, _, _, _, _, _, executed, rfl⟩
    · exact book.numbered
    · cases occurred
      exact ⟨book.numbered.distinct, book.numbered.below⟩
    · exact book.numbered.effect (exec_effect executed)
  · intro current member token drew
    obtain ⟨index, found⟩ := List.mem_iff_getElem?.mp member
    rcases drew_after stepped found drew with ⟨thread, old, drew⟩ | ⟨_, _, drawn⟩
    · exact drawn_next stepped (book.drawn thread (List.mem_of_getElem? old) token drew)
    · exact drawn
  · intro i j first second token at_i at_j drew drew'
    rcases drew_after stepped at_i drew with ⟨thread, old, drew⟩ | ⟨⟨choice, label⟩, fresh, _⟩
    · rcases drew_after stepped at_j drew' with ⟨thread', old', drew'⟩ | ⟨_, fresh, _⟩
      · exact book.alone i j thread thread' token old old' drew drew'
      · exact absurd (book.drawn thread (List.mem_of_getElem? old) token drew) fresh
    · rcases drew_after stepped at_j drew' with ⟨thread', old', drew'⟩ | ⟨⟨choice', label'⟩, _⟩
      · exact absurd (book.drawn thread' (List.mem_of_getElem? old') token drew') fresh
      · cases label.symm.trans label'
        rfl
  · intro row member kind held has
    -- Who stored it before still has it in its history.
    have kept {row : UserRow} (before : row ∈ cfg.world.users) (has : row.stored kind = some held) :
        ∃ thread ∈ after.threads, thread.log.Saw (.sql (.setToken kind held row.id)) (.ok ()) := by
      obtain ⟨thread, among, saw⟩ := book.issued row before kind held has
      obtain ⟨index, found⟩ := List.mem_iff_getElem?.mp among
      obtain ⟨current, still, _, grown⟩ := thread_kept stepped found
      exact ⟨current, List.mem_of_getElem? still, saw.mono grown⟩
    rcases next_cases stepped with ⟨_, _, rfl⟩ | ⟨_, _, _, occurred, rfl⟩ |
      ⟨index, choice, thread, op, rest, reply, world, _, at_index, _, executed, rfl⟩
    · exact kept member has
    · cases occurred
      exact kept member has
    · rcases stored_after (exec_effect executed) member has with ⟨old, among, same, has, _⟩ | entry
      · exact same ▸ kept among has
      · have inside := (List.getElem?_eq_some_iff.mp at_index).1
        refine ⟨_, List.mem_of_getElem? (List.getElem?_set_self inside), ?_⟩
        have here : (⟨op, reply⟩ : Entry Reply) ∈ (thread.resumed op reply rest).log := List.mem_cons_self
        rw [entry] at here
        exact here

theorem Book.drawer (book : Book e cfg) {thread : ServiceThread} (member : thread ∈ cfg.threads)
    {held : StoredToken} {reply : Except Fault Unit} (saw : thread.log.Saw (.sql (.setToken kind held id)) reply) :
    thread.request.mails = some kind ∧ ∃ token, Drew token thread ∧ held.hash = hashToken e token := by
  obtain ⟨earlier, within, mails, _, token, now, drew, _, rfl⟩ := book.justified.saw member saw
  exact ⟨mails, token, drew.mono within, rfl⟩

-- A request stores one token, in one column, for one user.
theorem Book.stores_once (book : Book e cfg) {thread : ServiceThread} (member : thread ∈ cfg.threads)
    {entry entry' : Entry Reply} (among : entry ∈ thread.log) (among' : entry' ∈ thread.log)
    (stores : isStore entry) (stores' : isStore entry') : entry = entry' := by
  refine book.justified.once member ?_ among among' stores stores'
  rintro log ⟨op, reply⟩ issues stores
  unfold isStore at stores
  split at stores
  · next same =>
    cases same
    exact issues.2.1
  · exact stores.elim

/-- A hash is in one place: all that was ever stored of one token was stored at once. -/
theorem Book.one_store (book : Book e cfg) (injective : Function.Injective e.sha256)
    {thread thread' : ServiceThread} (member : thread ∈ cfg.threads) (member' : thread' ∈ cfg.threads)
    {kind' : TokenKind} {held held' : StoredToken} {id' : Int64} {reply reply' : Except Fault Unit}
    (saw : thread.log.Saw (.sql (.setToken kind held id)) reply)
    (saw' : thread'.log.Saw (.sql (.setToken kind' held' id')) reply') (same : held.hash = held'.hash) :
    thread = thread' ∧ kind = kind' ∧ held = held' ∧ id = id' := by
  obtain ⟨_, token, drew, hash⟩ := book.drawer member saw
  obtain ⟨_, token', drew', hash'⟩ := book.drawer member' saw'
  have tokens : token = token' := hashToken_injective injective (hash.symm.trans (same.trans hash'))
  subst tokens
  obtain ⟨i, at_i⟩ := List.mem_iff_getElem?.mp member
  obtain ⟨j, at_j⟩ := List.mem_iff_getElem?.mp member'
  cases book.alone i j thread thread' token at_i at_j drew drew'
  cases at_i.symm.trans at_j
  cases book.stores_once member saw saw' trivial trivial
  exact ⟨rfl, rfl, rfl, rfl⟩

end Book

section Gone

def Spent (token : String) (cfg : Service) : Prop :=
  ∃ thread ∈ cfg.threads, Drew token thread ∧ ∃ entry ∈ thread.log, isStore entry

theorem Spent.next (spent : Spent token cfg) (stepped : (machine e).next cfg label = some after) :
    Spent token after := by
  obtain ⟨thread, member, drew, entry, within, stores⟩ := spent
  obtain ⟨index, found⟩ := List.mem_iff_getElem?.mp member
  obtain ⟨current, still, _, grown⟩ := thread_kept stepped found
  exact ⟨current, List.mem_of_getElem? still, drew.mono grown, entry, grown.subset within, stores⟩

-- A spent token is not stored again: only who drew it could, and it stores once.
theorem Spent.not_stored (spent : Spent token cfg) (book : Book e cfg) (injective : Function.Injective e.sha256)
    {index : Nat} {thread : ServiceThread} (at_index : cfg.threads[index]? = some thread)
    {held : StoredToken} (issues : thread.Issues (.sql (.setToken kind held id))) :
    held.hash ≠ hashToken e token := by
  intro same
  obtain ⟨_, unstored, other, _, drew, _, rfl⟩ :=
    book.disciplined.issues (List.mem_of_getElem? at_index) issues
  have tokens : other = token := hashToken_injective injective same
  subst tokens
  obtain ⟨spender, present, drew', entry, within, stores⟩ := spent
  obtain ⟨j, at_j⟩ := List.mem_iff_getElem?.mp present
  cases book.alone index j thread spender other at_index at_j drew drew'
  cases at_index.symm.trans at_j
  exact unstored entry within stores

structure Gone (e : Environment) (token : String) (cfg : Service) : Prop where
  absent : ∀ row ∈ cfg.world.users, ∀ kind held, row.stored kind = some held → held.hash ≠ hashToken e token
  spent : Spent token cfg

theorem Gone.next (gone : Gone e token cfg) (book : Book e cfg) (injective : Function.Injective e.sha256)
    (stepped : (machine e).next cfg label = some after) : Gone e token after := by
  constructor
  · intro row member kind held has
    rcases next_cases stepped with ⟨_, _, rfl⟩ | ⟨_, _, _, occurred, rfl⟩ |
      ⟨index, choice, thread, op, rest, reply, world, _, at_index, program, executed, rfl⟩
    · exact gone.absent row member kind held has
    · cases occurred
      exact gone.absent row member kind held has
    · rcases stored_after (exec_effect executed) member has with ⟨old, among, _, has, _⟩ | entry
      · exact gone.absent old among kind held has
      · cases entry
        exact gone.spent.not_stored book injective at_index ⟨rest, program⟩
  · exact gone.spent.next stepped

theorem StoredFor.spent (book : Book e cfg) (injective : Function.Injective e.sha256) {thread : ServiceThread}
    (member : thread ∈ cfg.threads) {expiresAt : Time} (stored : StoredFor e kind token id expiresAt thread) :
    Spent token cfg := by
  obtain ⟨_, other, drew, same⟩ := book.drawer member stored
  cases hashToken_injective injective same
  exact ⟨thread, member, drew, _, stored, trivial⟩

-- Storing another token of the kind for the user takes the older one away.
theorem superseded (book : Book e cfg) (injective : Function.Injective e.sha256)
    (stepped : (machine e).next cfg label = some after) {older current : ServiceThread}
    (member : older ∈ cfg.threads) {expiresAt expiresAt' : Time} {newer : String} {index : Nat}
    (stored : StoredFor e kind token id expiresAt older) (found : after.threads[index]? = some current)
    (stored' : StoredFor e kind newer id expiresAt' current)
    (fresh : ∀ thread, cfg.threads[index]? = some thread → ¬ StoredFor e kind newer id expiresAt' thread) :
    Gone e token after := by
  have spent := stored.spent book injective member
  refine ⟨?_, spent.next stepped⟩
  rcases saw_after stepped found stored' with ⟨thread, old, _, saw⟩ |
    ⟨choice, thread, rest, _, at_index, program, executed, _⟩
  · exact absurd saw (fresh thread old)
  · intro row present kind' held has same
    have ran : exec e choice (.sql (.setToken kind ⟨hashToken e newer, expiresAt'⟩ id)) cfg.world =
        some (.ok (), after.world) := executed
    rcases stored_after (exec_effect ran) present has with ⟨old, among, ids, has, not_stored, _⟩ | entry
    -- A column that was left alone would be the one just overwritten.
    · obtain ⟨holder, present', saw'⟩ := book.issued old among kind' held has
      obtain ⟨_, rfl, _, ids'⟩ := book.one_store injective member present' stored saw' same.symm
      rw [ids', ids] at not_stored
      exact not_stored _ rfl
    · cases entry
      exact spent.not_stored book injective at_index ⟨rest, program⟩ same

/-- What a request does when its UPDATE finds a user: the token was issued to that user
and had not expired, and it is gone afterwards. -/
theorem redeems_next (book : Book e cfg) (injective : Function.Injective e.sha256)
    (stepped : (machine e).next cfg label = some after) {choice : Choice} {op : Op} {reply : Reply op}
    (executed : exec e choice op cfg.world = some (reply, after.world))
    (redeems : Redeems kind (hashToken e token) ⟨op, reply⟩) :
    (∃ holder ∈ cfg.threads, Drew token holder ∧ holder.request.mails = some kind ∧
      ∃ id expiresAt, cfg.world.now < expiresAt ∧ StoredFor e kind token id expiresAt holder) ∧
      Gone e token after := by
  obtain ⟨row, member, taken, held, has, hash, unexpired⟩ := redeemed_row (exec_effect executed) redeems
  obtain ⟨holder, present, saw⟩ := book.issued row member kind held has
  obtain ⟨mails, other, drew, hash'⟩ := book.drawer present saw
  have tokens : other = token := hashToken_injective injective (hash'.symm.trans hash)
  subst tokens
  refine ⟨⟨holder, present, drew, mails, row.id, held.expiresAt, unexpired, ?_⟩, ?_, ?_⟩
  · rw [StoredFor, ← hash]
    exact saw
  -- The only column with the hash was that row's, and the UPDATE cleared it.
  · intro row' member' kind' held' has' same
    have redeeming : ¬ isStore ⟨op, reply⟩ := by
      obtain ⟨_, _, shape⟩ := redeems
      cases kind with
      | verification =>
          cases shape
          exact id
      | reset =>
          obtain ⟨_, shape⟩ := shape
          cases shape
          exact id
    rcases stored_after (exec_effect executed) member' has' with ⟨old, among, _, has', _, left⟩ | entry
    · obtain ⟨holder', present', saw'⟩ := book.issued old among kind' held' has'
      obtain ⟨_, rfl, _, ids⟩ := book.one_store injective present present' saw saw' (hash.trans same.symm)
      cases book.numbered.same member among ids
      rw [left _ redeems] at taken
      cases taken
    · exact redeeming (entry ▸ trivial)
  · exact Spent.next ⟨holder, present, drew, _, saw, trivial⟩ stepped

/-- Where a redeemed token comes from: it was redeemed before, or the step redeems it. -/
theorem redeemed_after (stepped : (machine e).next cfg label = some after) {index : Nat}
    {current : ServiceThread} (found : after.threads[index]? = some current)
    (redeemed : Redeemed e kind token current) :
    (∃ thread, cfg.threads[index]? = some thread ∧ Redeemed e kind token thread) ∨
    ∃ choice thread op rest reply, label = .step index choice ∧ cfg.threads[index]? = some thread ∧
      thread.program = .call op rest ∧ exec e choice op cfg.world = some (reply, after.world) ∧
      Redeems kind (hashToken e token) ⟨op, reply⟩ := by
  obtain ⟨presents, ⟨op, reply⟩, among, redeems⟩ := redeemed
  rcases saw_after stepped found among with ⟨thread, old, same, saw⟩ |
    ⟨choice, thread, rest, step, at_index, program, executed, _⟩
  · exact .inl ⟨thread, old, same ▸ presents, _, saw, redeems⟩
  · exact .inr ⟨choice, thread, op, rest, reply, step, at_index, program, executed, redeems⟩

theorem Gone.unredeemable (gone : Gone e token cfg) {choice : Choice} {op : Op} {reply : Reply op}
    {w' : World} (executed : exec e choice op cfg.world = some (reply, w')) :
    ¬ Redeems kind (hashToken e token) ⟨op, reply⟩ := by
  intro redeems
  obtain ⟨row, member, _, held, has, hash, _⟩ := redeemed_row (exec_effect executed) redeems
  exact gone.absent row member kind held has hash

/-- Redeemed tokens are gone, were issued, and were redeemed by one request. -/
structure Consumed (e : Environment) (cfg : Service) : Prop where
  book : Book e cfg
  gone : ∀ thread ∈ cfg.threads, ∀ kind token, Redeemed e kind token thread → Gone e token cfg
  backed : ∀ thread ∈ cfg.threads, ∀ kind token, Redeemed e kind token thread →
    ∃ holder ∈ cfg.threads, Drew token holder ∧ holder.request.mails = some kind ∧
      ∃ id expiresAt, StoredFor e kind token id expiresAt holder
  once : ∀ (i j : Nat) (first second : ServiceThread) kind kind' token, cfg.threads[i]? = some first →
    cfg.threads[j]? = some second → Redeemed e kind token first → Redeemed e kind' token second → i = j

theorem Consumed.next (consumed : Consumed e cfg) (injective : Function.Injective e.sha256)
    (stepped : (machine e).next cfg label = some after) : Consumed e after := by
  constructor
  · exact consumed.book.next stepped
  · intro current member kind token redeemed
    obtain ⟨index, found⟩ := List.mem_iff_getElem?.mp member
    rcases redeemed_after stepped found redeemed with ⟨thread, old, redeemed⟩ |
      ⟨choice, thread, op, rest, reply, step, at_index, program, executed, redeems⟩
    · exact (consumed.gone thread (List.mem_of_getElem? old) kind token redeemed).next consumed.book
        injective stepped
    · exact (redeems_next consumed.book injective stepped executed redeems).2
  · intro current member kind token redeemed
    -- Whoever stored it keeps that in its history.
    have kept {holder : ServiceThread} (present : holder ∈ cfg.threads) (drew : Drew token holder)
        (mails : holder.request.mails = some kind)
        (stored : ∃ id expiresAt, StoredFor e kind token id expiresAt holder) :
        ∃ holder ∈ after.threads, Drew token holder ∧ holder.request.mails = some kind ∧
          ∃ id expiresAt, StoredFor e kind token id expiresAt holder := by
      obtain ⟨index, found⟩ := List.mem_iff_getElem?.mp present
      obtain ⟨current, still, same, grown⟩ := thread_kept stepped found
      obtain ⟨id, expiresAt, stored⟩ := stored
      exact ⟨current, List.mem_of_getElem? still, drew.mono grown, same ▸ mails, id, expiresAt,
        stored.mono grown⟩
    obtain ⟨index, found⟩ := List.mem_iff_getElem?.mp member
    rcases redeemed_after stepped found redeemed with ⟨thread, old, redeemed⟩ |
      ⟨choice, thread, op, rest, reply, step, at_index, program, executed, redeems⟩
    · obtain ⟨holder, present, drew, mails, stored⟩ :=
        consumed.backed thread (List.mem_of_getElem? old) kind token redeemed
      exact kept present drew mails stored
    · obtain ⟨⟨holder, present, drew, mails, id, expiresAt, _, stored⟩, _⟩ :=
        redeems_next consumed.book injective stepped executed redeems
      exact kept present drew mails ⟨id, expiresAt, stored⟩
  · intro i j first second kind kind' token at_i at_j redeemed redeemed'
    rcases redeemed_after stepped at_i redeemed with ⟨thread, old, redeemed⟩ |
      ⟨choice, thread, op, rest, reply, step, _, _, executed, redeems⟩
    · have gone := consumed.gone thread (List.mem_of_getElem? old) kind token redeemed
      rcases redeemed_after stepped at_j redeemed' with ⟨thread', old', redeemed'⟩ |
        ⟨choice', thread', op', rest', reply', _, _, _, executed', redeems'⟩
      · exact consumed.once i j thread thread' kind kind' token old old' redeemed redeemed'
      · exact absurd redeems' (gone.unredeemable executed')
    · rcases redeemed_after stepped at_j redeemed' with ⟨thread', old', redeemed'⟩ |
        ⟨choice', thread', op', rest', reply', step', _⟩
      · have gone := consumed.gone thread' (List.mem_of_getElem? old') kind' token redeemed'
        exact absurd redeems (gone.unredeemable executed)
      · cases step.symm.trans step'
        rfl

theorem Fresh.consumed (start : Fresh cfg) : Consumed e cfg := by
  constructor
  · exact start.book
  · intro thread member
    rw [start.threads] at member
    cases member
  · intro thread member
    rw [start.threads] at member
    cases member
  · intro i j first second kind kind' token at_i
    rw [start.threads] at at_i
    cases at_i

theorem consumed_reached {first last : Service} (injective : Function.Injective e.sha256) (start : Fresh first)
    {allowed : Service → ServiceLabel → Prop} (run : (machine e).Reaches allowed first last) :
    Consumed e last :=
  run.invariant _ start.consumed fun _ _ _ consumed _ stepped => consumed.next injective stepped

-- A token that is gone is redeemed by nobody any more.
theorem Gone.redeemed_before {middle last : Service} (gone : Gone e token middle) (book : Book e middle)
    (injective : Function.Injective e.sha256) (run : (machine e).Reaches anyStep middle last)
    {index : Nat} {current : ServiceThread} (found : last.threads[index]? = some current)
    (redeemed : Redeemed e kind token current) :
    ∃ thread, middle.threads[index]? = some thread ∧ Redeemed e kind token thread := by
  have held : (Book e last ∧ Gone e token last) ∧ ∀ current, last.threads[index]? = some current →
      Redeemed e kind token current →
        ∃ thread, middle.threads[index]? = some thread ∧ Redeemed e kind token thread := by
    apply run.invariant (fun cfg => (Book e cfg ∧ Gone e token cfg) ∧ ∀ current,
      cfg.threads[index]? = some current → Redeemed e kind token current →
        ∃ thread, middle.threads[index]? = some thread ∧ Redeemed e kind token thread)
    · exact ⟨⟨book, gone⟩, fun current found redeemed => ⟨current, found, redeemed⟩⟩
    · rintro cfg label after ⟨⟨book, gone⟩, before⟩ _ stepped
      refine ⟨⟨book.next stepped, gone.next book injective stepped⟩, fun current found redeemed => ?_⟩
      rcases redeemed_after stepped found redeemed with ⟨thread, old, redeemed⟩ |
        ⟨choice, thread, op, rest, reply, _, _, _, executed, redeems⟩
      · exact before thread old redeemed
      · exact absurd redeems (gone.unredeemable executed)
  exact held.2 current found redeemed

end Gone

/-- Any interleaving. A token is redeemed by at most one request, and a redeeming request
that succeeds has redeemed its token; a token is redeemed while it is stored and unexpired,
never after a newer token of its kind was stored for the same user, and only as the kind
it was mailed as. -/
theorem emailed_tokens_single_use (injective : Function.Injective e.sha256) {first last : Service}
    (start : Fresh first) (run : (machine e).Reaches anyStep first last) :
    (∀ (i j : Nat) (thread thread' : ServiceThread) (kind : TokenKind) (token : String),
      last.threads[i]? = some thread → last.threads[j]? = some thread' →
        Redeemed e kind token thread → Redeemed e kind token thread' → i = j) ∧
    (∀ thread ∈ last.threads, ∀ (kind : TokenKind) (token text : String), thread.request.Presents kind token →
      thread.program = .ret (.message text) → Redeemed e kind token thread) ∧
    (∀ (label : ServiceLabel) (after : Service), (machine e).next last label = some after →
      ∀ (index : Nat) (current : ServiceThread) (kind : TokenKind) (token : String),
        after.threads[index]? = some current → Redeemed e kind token current →
        (∀ thread, last.threads[index]? = some thread → ¬ Redeemed e kind token thread) →
          ∃ holder ∈ last.threads, ∃ id expiresAt, StoredFor e kind token id expiresAt holder ∧
            last.world.now < expiresAt) ∧
    (∀ (label : ServiceLabel) (after : Service), (machine e).next last label = some after →
      ∀ (kind : TokenKind) (token newer : String) (id : Int64) (expiresAt expiresAt' : Time),
        ∀ older ∈ last.threads, StoredFor e kind token id expiresAt older →
        ∀ (index : Nat) (current : ServiceThread), after.threads[index]? = some current →
          StoredFor e kind newer id expiresAt' current →
          (∀ thread, last.threads[index]? = some thread → ¬ StoredFor e kind newer id expiresAt' thread) →
        ∀ final, (machine e).Reaches anyStep after final →
          ∀ (j : Nat) (redeemer : ServiceThread), final.threads[j]? = some redeemer →
            Redeemed e kind token redeemer →
              ∃ thread, after.threads[j]? = some thread ∧ Redeemed e kind token thread) ∧
    (∀ drawer ∈ last.threads, ∀ thread ∈ last.threads, ∀ (kind : TokenKind) (token : String),
      Drew token drawer → Redeemed e kind token thread → drawer.request.mails = some kind) := by
  have consumed : Consumed e last := consumed_reached injective start run
  have book := consumed.book
  refine ⟨?_, ?_, ?_, ?_, ?_⟩
  · intro i j thread thread' kind token at_i at_j redeemed redeemed'
    exact consumed.once i j thread thread' kind kind token at_i at_j redeemed redeemed'
  · intro thread member kind token text presents ended
    exact ⟨presents, book.disciplined.ends member ended kind token presents⟩
  · intro label after stepped index current kind token found redeemed fresh
    rcases redeemed_after stepped found redeemed with ⟨thread, old, redeemed⟩ |
      ⟨choice, thread, op, rest, reply, _, _, _, executed, redeems⟩
    · exact absurd redeemed (fresh thread old)
    · obtain ⟨⟨holder, present, _, _, id, expiresAt, unexpired, stored⟩, _⟩ :=
        redeems_next book injective stepped executed redeems
      exact ⟨holder, present, id, expiresAt, stored, unexpired⟩
  · intro label after stepped kind token newer id expiresAt expiresAt' older member stored index current
      found stored' fresh final later j redeemer at_j redeemed
    have gone := superseded book injective stepped member stored found stored' fresh
    exact gone.redeemed_before (book.next stepped) injective later at_j redeemed
  · intro drawer present thread member kind token drew redeemed
    obtain ⟨holder, among, drew', mails, _⟩ := consumed.backed thread member kind token redeemed
    obtain ⟨i, at_i⟩ := List.mem_iff_getElem?.mp present
    obtain ⟨j, at_j⟩ := List.mem_iff_getElem?.mp among
    cases book.alone i j drawer holder token at_i at_j drew drew'
    cases at_i.symm.trans at_j
    exact mails

section Signup

def mailedToken : String := "9f2c4e6a8b0d1f3e5c7a9b1d3f5e7c9a0b2d4f6e8a1c3e5b7d9f1a3c5e7b9d1f"

/-- SHA-256 of `mailedToken`. -/
def mailedHash : Bytes :=
  [160, 117, 204, 152, 219, 128, 199, 185, 67, 139, 172, 205, 19, 211, 241, 245, 0, 220, 73, 7, 99, 8,
    222, 250, 105, 86, 84, 225, 169, 215, 234, 53]

def aliceAddress : String := "alice@example.com"
def alicePassword : String := "correct horse battery"
def alicePasswordHash : String := "$2a$10$N9qo8uLOickgx2ZMRZoMyeUalutVAUeK1iyhYKLzwpTyWAft3dHE."

def aliceSession : UserClaims :=
  ⟨1, aliceAddress, "6f1c2a34-9d5e-4b7f-8a01-1c2d3e4f5a6b", 1754000000, 1756592000⟩

def marshalClaims (claims : UserClaims) : Bytes :=
  ("\x7b\"sub\":" ++ toString claims.userID ++ ",\"email\":\"" ++ claims.email ++ "\",\"sid\":\"" ++
    claims.sessionID ++ "\",\"iat\":" ++ toString claims.issuedAt ++ ",\"exp\":" ++
    toString claims.expiresAt ++ "\x7d").toUTF8.toList

/-- HMAC-SHA-256 of the unsigned token of `aliceSession` under "secret". -/
def cookieMac : Bytes :=
  [163, 62, 77, 155, 242, 187, 66, 162, 2, 129, 75, 185, 50, 220, 199, 232, 86, 190, 40, 106, 250, 232,
    246, 255, 237, 201, 205, 83, 148, 198, 28, 9]

/-- Hashes, signatures and JSON documents are those of these texts. -/
def environment : Environment where
  base64Decode := AgentKeys.Hosts.base64Decode
  sha256 := Equiv.swap mailedToken.toUTF8.data.toList mailedHash
  ed25519Verify := fun _ _ _ => false
  lowerRune := Char.toLower
  uuidText := Mainnet.uuidText
  authJWTSecretVar := "secret"
  googleClientIDVar := ""
  hmacSHA256 := fun _ message =>
    if message = (AgentRuntime.Agents.rawURLEncode AgentRuntime.Agents.jwtHeader ++ "." ++
      AgentRuntime.Agents.rawURLEncode (marshalClaims aliceSession)).toUTF8.toList then cookieMac else []
  rawURLEncode := AgentRuntime.Agents.rawURLEncode
  rawURLDecode := fun text =>
    if text = AgentRuntime.Agents.rawURLEncode (marshalClaims aliceSession) then
      some (marshalClaims aliceSession)
    else if text = AgentRuntime.Agents.rawURLEncode cookieMac then some cookieMac
    else if text = AgentRuntime.Agents.rawURLEncode AgentRuntime.Agents.jwtHeader then
      some AgentRuntime.Agents.jwtHeader
    else none
  jwtHeader := AgentRuntime.Agents.jwtHeader
  unmarshalAlg := fun data => if data = AgentRuntime.Agents.jwtHeader then some "HS256" else none
  marshalClaims := marshalClaims
  unmarshalClaims := fun data => if data = marshalClaims aliceSession then some aliceSession else none
  bcryptMatches := fun hash password => hash = alicePasswordHash && password = alicePassword

theorem environment_injective : Function.Injective environment.sha256 := Equiv.injective _

def registerAlice : Request := .register ⟨.post, some ⟨"Alice", aliceAddress, alicePassword⟩⟩

def verifyAlice : Request := .verifyEmail ⟨.post, some ⟨mailedToken⟩⟩

def sound : Choice := ⟨none, none, .unavailable⟩

def steps (index count : Nat) : List ServiceLabel := List.replicate count (.step index sound)

def random (text : String) (index : Nat) : ServiceLabel := .step index { sound with text := some text }

def opening : Service :=
  { world :=
      { users := [], nextUserID := 1, sessions := [], tokens := [], now := 63889596800 * second
        minted := [], drawn := [] }
    threads := [] }

theorem opening_fresh : Fresh opening := ⟨rfl, rfl⟩

def registration (index : Nat) : List ServiceLabel :=
  [.arrive registerAlice, random alicePasswordHash index] ++ steps index 1 ++
    random mailedToken index :: steps index 3

def redeemsMailed (cfg : Service) (index : Nat) : Bool :=
  match cfg.threads[index]? with
  | some ⟨.verifyEmail ⟨_, some body⟩, log, _⟩ => trimSpace body.token = mailedToken && log.any fun
      | ⟨.sql (.verifyEmail hash), .ok affected⟩ => hash = hashToken environment mailedToken && 0 < affected
      | _ => false
  | _ => false

theorem redeemsMailed_of {cfg : Service} {index : Nat} (redeems : redeemsMailed cfg index = true) :
    ∃ thread, cfg.threads[index]? = some thread ∧ Redeemed environment .verification mailedToken thread := by
  unfold redeemsMailed at redeems
  split at redeems
  · next method body log program found =>
    simp only [Bool.and_eq_true, decide_eq_true_eq, List.any_eq_true] at redeems
    obtain ⟨same, entry, member, update⟩ := redeems
    split at update
    · next hash affected =>
      simp only [Bool.and_eq_true, decide_eq_true_eq] at update
      refine ⟨_, found, ⟨_, body, rfl, rfl, same.symm⟩, _, member, affected, update.2, ?_⟩
      rw [update.1]
    · cases update
  · cases redeems

/-- The link is opened twice: the second request finds no user, by the general result. -/
theorem emailed_tokens_single_use_alice : ∃ (last : Service) (first second : ServiceThread),
    last.threads[1]? = some first ∧ last.threads[2]? = some second ∧
    Redeemed environment .verification mailedToken first ∧
    ¬ Redeemed environment .verification mailedToken second := by
  obtain ⟨last, run, done⟩ := run_meets (machine environment) (fun _ _ => true)
    (registration 0 ++ [.arrive verifyAlice, .arrive verifyAlice] ++ steps 1 1 ++ steps 2 1) opening
    (fun last => redeemsMailed last 1 && last.threads[2]?.isSome) (by decide +kernel)
  simp only [Bool.and_eq_true] at done
  obtain ⟨first, at_one, redeemed⟩ := redeemsMailed_of done.1
  obtain ⟨second, at_two⟩ := Option.isSome_iff_exists.mp done.2
  refine ⟨last, first, second, at_one, at_two, redeemed, fun again => ?_⟩
  have once := (emailed_tokens_single_use environment_injective opening_fresh run.any).1
  have same := once 1 2 first second .verification mailedToken at_one at_two redeemed again
  omega

end Signup
end Payknot.Accounts
