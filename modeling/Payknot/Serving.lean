import Payknot.Serial
import Payknot.Effects

/-! Complete requests while the database, the cache and the chain answer: what each
operation then does, as rules of the weakest precondition. -/
namespace Payknot
open GoText Interleaving Machine

variable {p : Platform} {Result : Type} {post : Result → World → Prop} {w : World}

def up (choice : Choice) : Prop := choice.fault = none

abbrev Sound (p : Platform) : Performing Reply World := (machine p).performing up

theorem sound_sql {statement : Sql} {reply : Except Fault statement.Result} {after : World}
    (performed : Sound p (.sql statement) w reply after) :
    settle none (statement.run p w) w = (reply, after) := by
  obtain ⟨choice, is_up, executed⟩ := performed
  change some (settle choice.fault _ _) = some (reply, after) at executed
  rw [is_up] at executed
  exact Option.some.inj executed

theorem sound_redis {command : Redis} {reply : Except Fault command.Result} {after : World}
    (performed : Sound p (.redis command) w reply after) :
    settle none (command.run w) w = (reply, after) := by
  obtain ⟨choice, is_up, executed⟩ := performed
  change some (settle choice.fault _ _) = some (reply, after) at executed
  rw [is_up] at executed
  exact Option.some.inj executed

theorem ensures_sql {statement : Sql} {next : Except Fault statement.Result → Handler Result}
    (held : (next (settle none (statement.run p w) w).1).Ensures (Sound p) post
      (settle none (statement.run p w) w).2) :
    (sql statement >>= next).Ensures (Sound p) post w := by
  refine (Program.ensures_perform_bind _ _ _).mpr fun reply after performed => ?_
  rw [sound_sql performed] at held
  exact held

theorem ensures_redis {command : Redis} {next : Except Fault command.Result → Handler Result}
    (held : (next (settle none (command.run w) w).1).Ensures (Sound p) post
      (settle none (command.run w) w).2) :
    (redis command >>= next).Ensures (Sound p) post w := by
  refine (Program.ensures_perform_bind _ _ _).mpr fun reply after performed => ?_
  rw [sound_redis performed] at held
  exact held

theorem ensures_hSet {key : String} {hash : InvoiceHash} {next : Except Fault Unit → Handler Result}
    (held : ∀ cache, (next (.ok ())).Ensures (Sound p) post { w with cache := cache }) :
    (redis (.hSet key hash) >>= next).Ensures (Sound p) post w :=
  ensures_redis (held _)

theorem ensures_expire {key : String} {ttl : Time} {next : Except Fault Unit → Handler Result}
    (held : ∀ cache, (next (.ok ())).Ensures (Sound p) post { w with cache := cache }) :
    (redis (.expire key ttl) >>= next).Ensures (Sound p) post w :=
  ensures_redis (held _)

theorem ensures_newUUID {next : String → Handler Result}
    (held : ∀ uuid, uuid ∉ w.minted → p.uuidText uuid = some uuid →
      (next uuid).Ensures (Sound p) post { w with minted := uuid :: w.minted }) :
    (newUUID >>= next).Ensures (Sound p) post w := by
  refine (Program.ensures_perform_bind _ _ _).mpr ?_
  rintro uuid after ⟨choice, _, executed⟩
  obtain ⟨fresh, canonical, _, rfl⟩ := exec_newUUID executed
  exact held uuid fresh canonical

theorem ensures_timeNow {next : Time → Handler Result}
    (held : (next w.now).Ensures (Sound p) post w) :
    (timeNow >>= next).Ensures (Sound p) post w := by
  refine (Program.ensures_perform_bind _ _ _).mpr ?_
  rintro now after ⟨choice, _, executed⟩
  cases executed
  exact held

theorem ensures_webhook {event : String} {payload : List (String × String)}
    {next : Unit → Handler Result} (held : (next ()).Ensures (Sound p) post w) :
    (emitPaymentWebhook p event payload >>= next).Ensures (Sound p) post w := by
  rw [Program.ensures_bind]
  unfold emitPaymentWebhook
  split
  · rw [Program.ensures_pure]
    exact held
  · apply ensures_timeNow
    rw [Program.perform, Program.ensures_call]
    rintro _ after ⟨_, _, executed⟩
    cases executed
    rw [Program.ensures_ret]
    exact held

-- These operations have one outcome, so the rules are exact.
theorem ensures_sql_iff {statement : Sql}
    {next : Except Fault statement.Result → Handler Result} :
    (sql statement >>= next).Ensures (Sound p) post w ↔
      (next (settle none (statement.run p w) w).1).Ensures (Sound p) post
        (settle none (statement.run p w) w).2 := by
  constructor
  · intro held
    exact (Program.ensures_perform_bind _ _ _).mp held _ _ ⟨⟨none, ""⟩, rfl, rfl⟩
  · exact ensures_sql

theorem ensures_timeNow_iff {next : Time → Handler Result} :
    (timeNow >>= next).Ensures (Sound p) post w ↔ (next w.now).Ensures (Sound p) post w := by
  constructor
  · intro held
    exact (Program.ensures_perform_bind _ _ _).mp held _ _ ⟨⟨none, ""⟩, rfl, rfl⟩
  · exact ensures_timeNow

end Payknot
