import RewardsDriver.Store.Frame
import RewardsDriver.Store.Gate
import RewardsDriver.Store.Opening
import RewardsDriver.Store.Tips

/-!
The store over a run of its operations and over restarts of the program, with any statement
failing, those of `Init` among them.

* `Sound`, `init_sound`: the invariant, and that `Init` keeps it and the rows.
* `run_outcome`, `read_outcome`: what one operation makes of the rows.
* `contents_after`: **the rows after a run** are those of the writes that were made.
-/

namespace RewardsDriver.Store

open RewardsDriver.Sql

/-! ### Rows -/

@[simp] lemma Db.contents_apply (db : Db) (w : Write) :
    (w.apply db).contents = w.apply db.contents := by
  cases w <;> rfl

variable {E : Sqlite}

variable {α β : Type}

/-! ### `Init` -/

/-- The invariant between the calls: an initialised store has no transaction open, and another one
has put no rows into its transaction. -/
structure Conn.Sound (c : Conn) : Prop where
  ready : c.initialized_ = true → c.Ready
  carries : c.Carries c.file.contents

lemma Conn.Ready.sound {c : Conn} (h : c.Ready) : c.Sound :=
  ⟨fun _ => h, rfl, fun db hdb => by rw [h.txn] at hdb; cases hdb⟩

/-- An `Init` that returns `true` has opened the store. -/
lemma ready_of_init {c c' : Conn} (h : c.initialized_ = false)
    (hinit : init E c = (.ok true, c')) : c'.Ready := by
  obtain ⟨hrefuses, hthrows, hsucceeds⟩ := init_spec (E := E) h
  by_cases hr : c.Refuses
  · obtain ⟨c'', hfalse, -⟩ := hrefuses hr
    rw [hinit] at hfalse
    cases hfalse
  · by_cases hthrow : c.Dropped 13 ∨ c.fails 15 ≠ none
    · obtain ⟨c'', hthrow⟩ := hthrows hr hthrow
      rw [hinit] at hthrow
      cases hthrow
    · rw [not_or, not_not] at hthrow
      obtain ⟨c'', hok, hready, -⟩ := hsucceeds hr hthrow.1 hthrow.2
      rw [hinit] at hok
      cases hok
      exact hready

/-- Without failures `Init` succeeds. -/
lemma Conn.Quiet.init {c : Conn} (hq : c.Quiet) (h : c.initialized_ = false) :
    ∃ c', Store.init E c = (.ok true, c') := by
  have hdrops : ∀ n, ¬ c.Drops n := fun n hd => hd.1 (hq n)
  have hlost : ¬ c.Dropped 13 := fun ⟨j, _, _, hd⟩ => hdrops j hd
  have hrefuses : ¬ c.Refuses := by
    rintro (hr | ⟨-, h15, -⟩)
    · exact hr ⟨fun i _ => hq i, ⟨hq 13, hq 14⟩, fun hd => absurd hd hlost⟩
    · exact h15 (hq 15)
  obtain ⟨c', hinit, -⟩ := (init_spec (E := E) h).2.2 hrefuses hlost (hq 15)
  exact ⟨c', hinit⟩

/-- **`Init` keeps the rows**, whatever fails in it, and leaves an initialised store exactly if it
returns `true`. -/
theorem init_sound {c : Conn} (h : c.Sound) {r : Except SqlException Bool} {c' : Conn}
    (hinit : init E c = (r, c')) :
    c'.Sound ∧ c'.file.contents = c.file.contents ∧ (r = .ok true → c'.Ready) ∧
      (c.Quiet → r = .ok true ∧ c'.Quiet) := by
  cases hflag : c.initialized_ with
  | true =>
      rw [init_of_initialized hflag, Prod.mk.injEq] at hinit
      obtain ⟨rfl, rfl⟩ := hinit
      exact ⟨h, rfl, fun _ => h.ready hflag, fun hq => ⟨rfl, hq⟩⟩
  | false =>
      have hdoes : Initializing c r c' := by
        have hinits := initializing_init (E := E) hflag
        rwa [hinit] at hinits
      have hcarries : c'.Carries c.file.contents := hdoes.carries _ h.carries
      have hready : r = .ok true → c'.Ready := by
        rintro rfl
        exact ready_of_init hflag hinit
      refine ⟨⟨fun hc' => ?_, hcarries.file ▸ hcarries⟩, hcarries.file, hready, fun hq => ?_⟩
      · by_cases hr : r = .ok true
        · exact hready hr
        · rw [hdoes.initialized hr, hflag] at hc'
          cases hc'
      · obtain ⟨c'', hok⟩ := hq.init (E := E) hflag
        rw [hinit, Prod.mk.injEq] at hok
        exact ⟨hok.1, hdoes.quiet hq⟩

/-! ### One operation -/

/-- Whether `Init` succeeds and the next statement does not fail. -/
def Conn.serves (E : Sqlite) (c : Conn) : Bool :=
  match init E c with
  | (.ok true, c') => c'.fails 0 = none
  | _ => false

/-- After an `Init` that succeeds everything goes on as on the store that it leaves. -/
lemma bind_init {f : Bool → DbM α} {c c' : Conn} (h : init E c = (.ok true, c')) (hc' : c'.Ready) :
    (init E >>= f) c = (init E >>= f) c' :=
  (DbM.bind_ok h).trans (DbM.bind_ok (init_of_ready hc')).symm

lemma tryCatch_congr {x handler : DbM α} {c c' : Conn} (h : x c = x c') :
    DbM.tryCatch x handler c = DbM.tryCatch x handler c' := by
  rw [DbM.tryCatch, DbM.tryCatch, h]

lemma run_of_init {c c' : Conn} (h : init E c = (.ok true, c')) (hc' : c'.Ready) (w : Write) :
    w.run E c = w.run E c' := by
  cases w with
  | mediaPublisherInfo media_key publisher_id => exact bind_init h hc'
  | _ => exact tryCatch_congr (bind_init h hc')

/-- When `Init` throws, an operation returns `false` or throws, and does nothing more. -/
lemma run_of_throws {c c' : Conn} {e : SqlException} (h : init E c = (.error e, c')) (w : Write) :
    w.run E c = (.ok false, c') ∨ w.run E c = (.error e, c') := by
  cases w with
  | mediaPublisherInfo media_key publisher_id => exact .inr (DbM.bind_error h)
  | _ => exact .inl (orFalse_error (DbM.bind_error h))

/-- **What a write makes of the rows**: it is made exactly if `Init` succeeds and its statement does
not fail, and otherwise the rows stay as they are. -/
theorem run_outcome {c : Conn} (h : c.Sound) (w : Write) :
    (w.run E c).2.Sound ∧
      (w.run E c).2.file.contents
        = (if c.serves E then w.apply c.file.contents else c.file.contents) ∧
      ((w.run E c).1 = .ok true → c.serves E = true) ∧
      (c.Quiet → c.serves E = true ∧ (w.run E c).2.Quiet) := by
  cases hinit : init E c with
  | mk r c' =>
      obtain ⟨hsound, hrows, hready, hquiet⟩ := init_sound h hinit
      cases r with
      | error e =>
          have hserves : c.serves E = false := by rw [Conn.serves, hinit]
          have hthrows : c.Quiet → False := fun hq => by cases (hquiet hq).1
          obtain hrun | hrun := run_of_throws hinit w
          all_goals
            rw [hserves, hrun]
            exact ⟨hsound, hrows, fun hok => by simp at hok, fun hq => (hthrows hq).elim⟩
      | ok b =>
          cases b with
          | false =>
              have hserves : c.serves E = false := by rw [Conn.serves, hinit]
              have hrun : w.run E c = (.ok false, c') :=
                Operation.gives_up sampleLedger hinit (.write w)
              rw [hserves, hrun]
              exact ⟨hsound, hrows, fun hok => by simp at hok, fun hq => by simpa using (hquiet hq).1⟩
          | true =>
              have hserves : c.serves E = decide (c'.fails 0 = none) := by rw [Conn.serves, hinit]
              obtain ⟨c'', hrun, hleaves⟩ := run_ready (E := E) (hready rfl) w
              rw [run_of_init hinit (hready rfl), hrun, hserves]
              refine ⟨hleaves.ready.sound, ?_, fun hok => ?_, fun hq => ?_⟩
              · show c''.file.contents = _
                rw [hleaves.file]
                by_cases hfails : c'.fails 0 = none
                · simp [hfails, hrows]
                · simp [hfails, hrows]
              · rw [Except.ok.injEq, Bool.and_eq_true] at hok
                exact hok.1
              · have hq' := (hquiet hq).2
                exact ⟨by simp [hq' 0], hleaves.quiet hq'⟩

/-- Only some of the operations ever return `true`. -/
lemma run_returns {c : Conn} (h : c.Sound) {w : Write} (hrun : (w.run E c).1 = .ok true) :
    w.returns = true := by
  cases hinit : init E c with
  | mk r c' =>
      obtain ⟨-, -, hready, -⟩ := init_sound h hinit
      cases r with
      | error e =>
          obtain hthrows | hthrows := run_of_throws hinit w
          all_goals
            rw [hthrows] at hrun
            simp at hrun
      | ok b =>
          cases b with
          | false =>
              have hgives : w.run E c = (.ok false, c') :=
                Operation.gives_up sampleLedger hinit (.write w)
              rw [hgives] at hrun
              simp at hrun
          | true =>
              obtain ⟨c'', hready', -⟩ := run_ready (E := E) (hready rfl) w
              rw [run_of_init hinit (hready rfl), hready', Except.ok.injEq, Bool.and_eq_true] at hrun
              exact hrun.2

/-- What an operation leaves of a connection. -/
def Operation.conn (E : Sqlite) (L : Ledger) (c : Conn) : Operation → Conn
  | .write w => (w.run E c).2
  | .find start limit filter list => (Store.find E L start limit filter list c).2
  | .count filter => (Store.count E L filter c).2
  | .getRecurringDonations list => (Store.getRecurringDonations E L list c).2
  | .getTips list month year => (Store.getTips E L list month year c).2
  | .getMediaPublisherInfo media_key => (Store.getMediaPublisherInfo E L media_key c).2

/-- An operation that only reads, other than `Count`, whose text may be any. -/
def Operation.Reads : Operation → Prop
  | .write _ | .count _ => False
  | _ => True

/-- A read on an initialised store is one statement. -/
lemma conn_ready {L : Ledger} {c : Conn} (hready : c.Ready) {op : Operation} (hop : op.Reads) :
    op.conn E L c = c.next := by
  cases op with
  | write | count => exact hop.elim
  | find start limit filter list =>
      rw [Operation.conn]
      obtain hnone | ⟨core, w, hsome⟩ := prepare_find E (cString (findClauses L start limit filter))
      · rw [find_refused list hready hnone]
      · rw [find_select list hready hsome]
  | getRecurringDonations list =>
      have hstep := stepSql_ready (E := E) hready
        (E.accepts _ _ (read_alone .selectRecurringDonation)) (by simp) (b := []) rfl
      exact congrArg Prod.snd
        (DbM.tryCatch_ok ((DbM.bind_ok (init_of_ready hready)).trans (DbM.bind_ok hstep)))
  | getTips list month year => rw [Operation.conn, getTips_refused L hready]
  | getMediaPublisherInfo media_key => rw [Operation.conn, getMediaPublisherInfo_ready L hready]

/-- A read after an `Init` that succeeds goes on as on the store that it leaves. -/
lemma conn_of_init {L : Ledger} {c c' : Conn} (h : init E c = (.ok true, c')) (hc' : c'.Ready)
    {op : Operation} (hop : op.Reads) : op.conn E L c = op.conn E L c' := by
  cases op with
  | write | count => exact hop.elim
  | find | getMediaPublisherInfo => exact congrArg Prod.snd (bind_init h hc')
  | getRecurringDonations | getTips => exact congrArg Prod.snd (tryCatch_congr (bind_init h hc'))

/-- A read does nothing more when `Init` does not succeed. -/
lemma conn_of_gives_up {L : Ledger} {c c' : Conn} {r : Except SqlException Bool}
    (h : init E c = (r, c')) (hr : r ≠ .ok true) {op : Operation} (hop : op.Reads) :
    op.conn E L c = c' := by
  cases r with
  | error e =>
      cases op with
      | write | count => exact hop.elim
      | find | getMediaPublisherInfo => exact congrArg Prod.snd (DbM.bind_error h)
      | getRecurringDonations | getTips =>
          exact congrArg Prod.snd (DbM.tryCatch_error (DbM.bind_error h))
  | ok b =>
      obtain rfl : b = false := by
        cases b with
        | true => exact absurd rfl hr
        | false => rfl
      have hgives := op.gives_up L h
      cases op with
      | write | count => exact hop.elim
      | _ => exact congrArg Prod.snd hgives

/-- **What a read makes of the rows**: nothing. -/
theorem read_outcome {L : Ledger} {c : Conn} (h : c.Sound) (op : Operation) (hop : op.Reads) :
    (op.conn E L c).Sound ∧ (op.conn E L c).file.contents = c.file.contents ∧
      (c.Quiet → (op.conn E L c).Quiet) := by
  cases hinit : init E c with
  | mk r c' =>
      obtain ⟨hsound, hrows, hready, hquiet⟩ := init_sound h hinit
      by_cases hr : r = .ok true
      · subst hr
        rw [conn_of_init hinit (hready rfl) hop, conn_ready (hready rfl) hop]
        exact ⟨(hready rfl).next.sound, hrows, fun hq => (hquiet hq).2.next⟩
      · rw [conn_of_gives_up hinit hr hop]
        exact ⟨hsound, hrows, fun hq => (hquiet hq).2⟩

/-! ### Runs -/

/-- A call of the store, or a restart of the program, whose connection goes with what is in its
transaction. -/
inductive Call where
  | operation (op : Operation)
  | restart

/-- The store of a new program on the same file. -/
def Conn.restart (c : Conn) : Conn := ⟨false, c.file, none, c.fails, c.rollsBack⟩

section Runs

variable (E) (L : Ledger)

/-- The connection after a call. -/
def Call.conn (c : Conn) : Call → Conn
  | .operation op => op.conn E L c
  | .restart => c.restart

/-- The connection after a run. -/
def after (calls : List Call) (c : Conn) : Conn := calls.foldl (Call.conn E L) c

/-- A write of a run. -/
def Call.write? : Call → Option Write
  | .operation (.write w) => some w
  | _ => none

/-- The writes of a run that meet a condition on the connection on which they are run. -/
def writesWhere (p : Write → Conn → Bool) : List Call → Conn → List Write
  | [], _ => []
  | call :: calls, c =>
      (call.write?.toList.filter fun w => p w c) ++ writesWhere p calls (call.conn E L c)

/-- The writes of a run that are made. -/
def made (calls : List Call) (c : Conn) : List Write :=
  writesWhere E L (fun _ c => c.serves E) calls c

/-- The writes of a run that return `true`. -/
def acknowledged (calls : List Call) (c : Conn) : List Write :=
  writesWhere E L (fun w c => match (w.run E c).1 with
    | .ok success => success
    | .error _ => false) calls c

variable {E L}

/-- **One call.** -/
lemma conn_outcome {c : Conn} (h : c.Sound) (call : Call)
    (hcall : ∀ filter, call ≠ .operation (.count filter)) :
    (call.conn E L c).Sound ∧
      (call.conn E L c).file.contents
        = (call.write?.toList.filter fun _ => c.serves E).foldl Write.apply c.file.contents ∧
      (c.Quiet → (call.conn E L c).Quiet) := by
  cases call with
  | restart =>
      have hsound : c.restart.Sound := by
        refine ⟨fun hflag => ?_, rfl, fun db hdb => ?_⟩
        · cases hflag
        · cases hdb
      exact ⟨hsound, rfl, fun hq => hq⟩
  | operation op =>
      have hread : op.Reads → _ := read_outcome (E := E) (L := L) h op
      cases op with
      | write w =>
          obtain ⟨hsound, hrows, -, hquiet⟩ := run_outcome (E := E) h w
          refine ⟨hsound, hrows.trans ?_, fun hq => (hquiet hq).2⟩
          cases c.serves E <;> rfl
      | count filter => exact absurd rfl (hcall filter)
      | _ => exact hread trivial

/-- **The rows after a run** of the operations other than `Count` and of restarts, on any file and
with any statements failing, those of `Init` among them: they are those of the file with the writes
that were made, one after the other. Every write that returned `true` has been made, and without
failures every write. -/
theorem contents_after {c : Conn} (h : c.Sound) {calls : List Call}
    (hcalls : ∀ filter, .operation (.count filter) ∉ calls) :
    (after E L calls c).file.contents = (made E L calls c).foldl Write.apply c.file.contents ∧
      (acknowledged E L calls c).Sublist (made E L calls c) ∧
      (made E L calls c).Sublist (calls.filterMap Call.write?) ∧
      (c.Quiet → made E L calls c = calls.filterMap Call.write?) := by
  induction calls generalizing c with
  | nil => exact ⟨rfl, List.Sublist.slnil, List.Sublist.slnil, fun _ => rfl⟩
  | cons call calls ih =>
      obtain ⟨hsound, hrows, hquiet⟩ := conn_outcome (E := E) (L := L) h call
        fun filter heq => hcalls filter (heq ▸ List.mem_cons_self)
      obtain ⟨hrest, hack, hmade, hall⟩ := ih hsound
        fun filter hmem => hcalls filter (List.mem_cons_of_mem call hmem)
      have hcons : (call :: calls).filterMap Call.write?
          = call.write?.toList ++ calls.filterMap Call.write? := by
        rw [List.filterMap_cons]
        cases call.write? <;> rfl
      rw [hcons]
      have hkept : List.Sublist
          (call.write?.toList.filter fun w => match (w.run E c).1 with
            | .ok success => success
            | .error _ => false)
          (call.write?.toList.filter fun _ => c.serves E) := by
        refine List.monotone_filter_right _ fun w hw => ?_
        cases hrun : (w.run E c).1 with
        | error e => simp [hrun] at hw
        | ok success =>
            obtain rfl : success = true := by simpa [hrun] using hw
            exact (run_outcome h w).2.2.1 hrun
      refine ⟨?_, hkept.append hack, List.filter_sublist.append hmade, fun hq => ?_⟩
      · calc (after E L (call :: calls) c).file.contents
            = (made E L calls (call.conn E L c)).foldl Write.apply
                (call.conn E L c).file.contents := hrest
          _ = (made E L (call :: calls) c).foldl Write.apply c.file.contents := by
              rw [hrows, ← List.foldl_append]
              rfl
      · have hserves : c.serves E = true := ((run_outcome h (.remove "")).2.2.2 hq).1
        show (call.write?.toList.filter fun _ => c.serves E) ++ made E L calls (call.conn E L c) = _
        rw [hall (hquiet hq), hserves, List.filter_true]

end Runs

/-! ### A restart -/

/-- The program is restarted between two writes. -/
def restarted : List Call :=
  [.operation (.write (.mediaPublisherInfo "youtube_1" "channel")), .restart,
    .operation (.write (.remove "brave.com"))]

theorem contents_after_restarted :
    (after reference sampleLedger restarted (Conn.on Db.fresh)).file.contents
        = (made reference sampleLedger restarted (Conn.on Db.fresh)).foldl Write.apply
            (Conn.on Db.fresh).file.contents ∧
      (acknowledged reference sampleLedger restarted (Conn.on Db.fresh)).Sublist
        (made reference sampleLedger restarted (Conn.on Db.fresh)) ∧
      (made reference sampleLedger restarted (Conn.on Db.fresh)).Sublist
        (restarted.filterMap Call.write?) ∧
      ((Conn.on Db.fresh).Quiet → made reference sampleLedger restarted (Conn.on Db.fresh)
        = restarted.filterMap Call.write?) :=
  contents_after (Conn.on_ready Db.fresh_complete).sound fun filter h => by simp [restarted] at h

end RewardsDriver.Store
