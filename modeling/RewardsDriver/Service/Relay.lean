import RewardsDriver.Base.Broadcast
import RewardsDriver.Base.Runs
import RewardsDriver.Service.Notify

/-!
The service between the ledger and the observers: the functions of `ledger::LedgerClient` that pass
on to the observers what the ledger has to say, and what they tell the ledger themselves.

Observers register and unregister themselves and others between the callbacks and while they are
being notified.

* `Callback`, `Callback.effects`: the callbacks, each with its calls of the ledger and the
  notification that it sends.
* `relay`: the labelled transition system.
* `Passes`, `pass_passes`: what one step can do, guard and result, for every label.
* `gets_interval`: **what a registration gets** of the notifications.
* `Agrees`, `agrees_effects`, `relay_agrees`: **what observers are told** agrees with what the
  ledger is told.
-/

namespace RewardsDriver.Service.Relay

open RewardsDriver.Store

/-! ### The values that are passed on -/

/-- `ledger::Result`, as far as the callbacks tell its values apart. -/
inductive Result where
  | LEDGER_OK
  | NOT_FOUND
  | WALLET_CREATED
  | other (code : UInt32)
  deriving DecidableEq

/-- `ledger::Grant`. -/
structure Grant where
  altcurrency : String
  probi : String
  promotionId : String
  expiryTime : UInt64
  deriving DecidableEq

/-- `ledger::WalletInfo`, as far as it is read. -/
structure WalletInfo where
  probi_ : String
  balance_ : Double
  rates_ : List (String × Double)
  parameters_choices_ : List Double
  parameters_range_ : List Double
  parameters_days_ : UInt32
  grants_ : List Grant

/-- `brave_rewards::WalletProperties`. -/
structure WalletProperties where
  probi : String
  balance : Double
  rates : List (String × Double)
  parameters_choices : List Double
  parameters_range : List Double
  parameters_days : UInt32
  grants : List Grant
  deriving DecidableEq

/-- `ledger::PublisherBanner` and `brave_rewards::PublisherBanner`, which have the same members. -/
structure PublisherBanner where
  publisher_key : String
  title : String
  name : String
  description : String
  background : String
  logo : String
  amounts : List Int32
  social : List (String × String)
  deriving DecidableEq

/-- What `std::time` and `GetLocalMonthYear` say. -/
structure Clock where
  now : UInt64
  month : Int32
  year : Int32

/-- A call of a function of `BraveRewardsServiceObserver`. -/
inductive Notification where
  | onWalletInitialized (error_code : Result)
  | onWalletProperties (error_code : Result) (properties : WalletProperties)
  | onGrant (error_code : Result) (properties : Grant)
  | onGrantCaptcha (image hint : String)
  | onRecoverWallet (result : Result) (balance : Double) (grants : List Grant)
  | onGrantFinish (result : Result) (grant : Grant)
  | onContentSiteUpdated
  | onExcludedSitesChanged
  | onReconcileComplete (result : Result) (viewing_id probi : String)
  | onRecurringDonationUpdated (new_list : List ContentSite)
  | onCurrentTips (new_list : List ContentSite)
  | onPublisherBanner (banner : PublisherBanner)
  | onGetPublisherActivityFromUrl (error_code : Result) (info : PublisherInfo) (windowId : UInt64)
  deriving DecidableEq

/-- A call of `ledger_`. -/
inductive LedgerCall where
  | setRewardsMainEnabled (enabled : Bool)
  | setAutoContribute (enabled : Bool)
  | setBalanceReportItem (month year : Int32) (probi : String)
  | fetchWalletProperties
  | onReconcileCompleteSuccess (viewing_id : String) (category : Int32) (probi : String)
      (month year : Int32) (date : UInt64)
  deriving DecidableEq

/-! ### The callbacks -/

/-- What a callback does: its calls of the ledger, and then the notification, if there is one. -/
structure Effects where
  calls : List LedgerCall
  notification : Option Notification

/-- `OnWalletInitialized`. -/
def onWalletInitialized (result : Result) : Effects :=
  if result = .WALLET_CREATED then
    ⟨[.setRewardsMainEnabled true, .setAutoContribute true], some (.onWalletInitialized .LEDGER_OK)⟩
  else ⟨[], some (.onWalletInitialized result)⟩

/-- The copy of a grant that leaves its promotion as the constructor has it. -/
def copyGrant (blank grant : Grant) : Grant :=
  { blank with
    altcurrency := grant.altcurrency
    probi := grant.probi
    expiryTime := grant.expiryTime }

/-- `OnWalletProperties` and `TriggerOnWalletProperties`: every observer gets its own copy of the
properties, and nobody is notified of none. -/
def onWalletProperties (blank : Grant) (result : Result) (info : Option WalletInfo) : Effects :=
  ⟨[], info.map fun wallet_info => .onWalletProperties result
    { probi := wallet_info.probi_
      balance := wallet_info.balance_
      rates := wallet_info.rates_
      parameters_choices := wallet_info.parameters_choices_
      parameters_range := wallet_info.parameters_range_
      parameters_days := wallet_info.parameters_days_
      grants := wallet_info.grants_.map (copyGrant blank) }⟩

/-- `OnGrant` and `TriggerOnGrant`. -/
def onGrant (result : Result) (grant : Grant) : Effects :=
  ⟨[], some (.onGrant result
    { promotionId := grant.promotionId
      altcurrency := grant.altcurrency
      probi := grant.probi
      expiryTime := grant.expiryTime })⟩

/-- `OnGrantCaptcha` and `TriggerOnGrantCaptcha`. -/
def onGrantCaptcha (image hint : String) : Effects := ⟨[], some (.onGrantCaptcha image hint)⟩

/-- `OnRecoverWallet` and `TriggerOnRecoverWallet`. -/
def onRecoverWallet (blank : Grant) (result : Result) (balance : Double) (grants : List Grant) :
    Effects :=
  ⟨[], some (.onRecoverWallet result balance (grants.map (copyGrant blank)))⟩

/-- `OnGrantFinish` and `TriggerOnGrantFinish`: the grant is put into the balance report. -/
def onGrantFinish (clock : Clock) (result : Result) (grant : Grant) : Effects where
  calls :=
    if result = .LEDGER_OK then [.setBalanceReportItem clock.month clock.year grant.probi] else []
  notification := some (.onGrantFinish result
    { promotionId := grant.promotionId
      altcurrency := grant.altcurrency
      probi := grant.probi
      expiryTime := grant.expiryTime })

/-- `OnReconcileComplete`. -/
def onReconcileComplete (clock : Clock) (result : Result) (viewing_id : String) (category : Int32)
    (probi : String) : Effects where
  calls :=
    if result = .LEDGER_OK then
      [.fetchWalletProperties,
        .onReconcileCompleteSuccess viewing_id category probi clock.month clock.year clock.now]
    else []
  notification := some (.onReconcileComplete result viewing_id probi)

/-- `OnPublisherInfoSaved`, after its callback: `TriggerOnContentSiteUpdated`. -/
def onPublisherInfoSaved : Effects := ⟨[], some .onContentSiteUpdated⟩

/-- `OnExcludedSitesChanged`. -/
def onExcludedSitesChanged : Effects := ⟨[], some .onExcludedSitesChanged⟩

/-- `OnPublisherActivity` and `TriggerOnGetPublisherActivityFromUrl`: a publisher that was not
found is an empty one. -/
def onPublisherActivity (L : Ledger) (result : Result) (info : Option PublisherInfo)
    (windowId : UInt64) : Effects where
  calls := []
  notification :=
    if result ≠ .LEDGER_OK ∧ result ≠ .NOT_FOUND then none
    else some (.onGetPublisherActivityFromUrl result (info.getD { L.defaults with id := "" })
      windowId)

/-- `OnRecurringDonationUpdated`. -/
def onRecurringDonationUpdated (list : List PublisherInfo) : Effects :=
  ⟨[], some (.onRecurringDonationUpdated (list.map contentSite))⟩

/-- `OnTipsUpdatedData`. -/
def onTipsUpdatedData (list : List PublisherInfo) : Effects :=
  ⟨[], some (.onCurrentTips (list.map contentSite))⟩

/-- `OnPublisherBanner`. -/
def onPublisherBanner (banner : Option PublisherBanner) : Effects :=
  ⟨[], banner.map .onPublisherBanner⟩

/-- A callback, with its arguments and what the clock says when it is called. -/
inductive Callback where
  | onWalletInitialized (result : Result)
  | onWalletProperties (result : Result) (info : Option WalletInfo)
  | onGrant (result : Result) (grant : Grant)
  | onGrantCaptcha (image hint : String)
  | onRecoverWallet (result : Result) (balance : Double) (grants : List Grant)
  | onGrantFinish (clock : Clock) (result : Result) (grant : Grant)
  | onReconcileComplete (clock : Clock) (result : Result) (viewing_id : String) (category : Int32)
      (probi : String)
  | onPublisherInfoSaved
  | onExcludedSitesChanged
  | onPublisherActivity (result : Result) (info : Option PublisherInfo) (windowId : UInt64)
  | onRecurringDonationUpdated (list : List PublisherInfo)
  | onTipsUpdatedData (list : List PublisherInfo)
  | onPublisherBanner (banner : Option PublisherBanner)

section System

variable (L : Ledger) (blank : Grant)

/-- What a callback does. -/
def Callback.effects : Callback → Effects
  | onWalletInitialized result => Relay.onWalletInitialized result
  | onWalletProperties result info => Relay.onWalletProperties blank result info
  | onGrant result grant => Relay.onGrant result grant
  | onGrantCaptcha image hint => Relay.onGrantCaptcha image hint
  | onRecoverWallet result balance grants => Relay.onRecoverWallet blank result balance grants
  | onGrantFinish clock result grant => Relay.onGrantFinish clock result grant
  | onReconcileComplete clock result viewing_id category probi =>
      Relay.onReconcileComplete clock result viewing_id category probi
  | onPublisherInfoSaved => Relay.onPublisherInfoSaved
  | onExcludedSitesChanged => Relay.onExcludedSitesChanged
  | onPublisherActivity result info windowId => Relay.onPublisherActivity L result info windowId
  | onRecurringDonationUpdated list => Relay.onRecurringDonationUpdated list
  | onTipsUpdatedData list => Relay.onTipsUpdatedData list
  | onPublisherBanner banner => Relay.onPublisherBanner banner

/-! ### Runs of the service -/

/-- The service: `observers_` with what has been sent and received, and the calls of `ledger_`. -/
structure State where
  observers_ : Broadcast Observer Notification
  ledger_ : List LedgerCall

/-- A step: `AddObserver` or `RemoveObserver` between the callbacks, or a callback. Its loop over
the observers is as long as they make it. -/
inductive Label where
  | registers (c : Change Observer)
  | callback (c : Callback) (reaction : Reaction) (fuel : ℕ)

/-- The enabled steps from `s`: the guard of each label and the state it leads to. -/
inductive Passes (s : State) : Label → State → Prop
  | registers {c} : Passes s (.registers c) { s with observers_ := s.observers_.change c }
  | silent {c : Callback} {reaction fuel} (h : (c.effects L blank).notification = none) :
      Passes s (.callback c reaction fuel)
        { s with ledger_ := s.ledger_ ++ (c.effects L blank).calls }
  | notifies {c : Callback} {reaction fuel n observers_}
      (h : (c.effects L blank).notification = some n)
      (hsend : s.observers_.send reaction fuel n = some observers_) :
      Passes s (.callback c reaction fuel) ⟨observers_, s.ledger_ ++ (c.effects L blank).calls⟩

variable {L blank}

end System

/-! ### What a registration gets -/

section Runs

variable {L : Ledger} {blank : Grant} {s s' : State} {labels : List Label}

/-- What a part of a run does: calls of the ledger and notifications. -/
structure Does (s s' : State) (calls : List LedgerCall) (news : List Notification) : Prop where
  calls : s'.ledger_ = s.ledger_ ++ calls
  sends : Sends s.observers_ s'.observers_ news

/-- Parts of a run compose. -/
lemma Does.trans {s t s' : State} {calls calls' : List LedgerCall} {news news' : List Notification}
    (h : Does s t calls news) (h' : Does t s' calls' news') :
    Does s s' (calls ++ calls') (news ++ news') where
  calls := by rw [h'.calls, h.calls, List.append_assoc]
  sends := h.sends.trans h'.sends

/-! ### What the observers and the ledger are told -/

/-- The grant that is put into the balance report. -/
def LedgerCall.reported? : LedgerCall → Option String
  | .setBalanceReportItem _ _ probi => some probi
  | _ => none

/-- The contribution that the ledger is told is complete. -/
def LedgerCall.reconciled? : LedgerCall → Option (String × String)
  | .onReconcileCompleteSuccess viewing_id _ probi _ _ _ => some (viewing_id, probi)
  | _ => none

/-- The grant that observers are told has come. -/
def Notification.granted? : Notification → Option String
  | .onGrantFinish .LEDGER_OK grant => some grant.probi
  | _ => none

/-- The contribution that observers are told is complete. -/
def Notification.reconciled? : Notification → Option (String × String)
  | .onReconcileComplete .LEDGER_OK viewing_id probi => some (viewing_id, probi)
  | _ => none

/-- The calls of the ledger and the notifications agree. -/
structure Agrees (calls : List LedgerCall) (news : List Notification) : Prop where
  /-- The grants in the balance report are those that the observers are told of. -/
  granted : calls.filterMap LedgerCall.reported? = news.filterMap Notification.granted?
  /-- The same contributions are complete. -/
  reconciled : calls.filterMap LedgerCall.reconciled? = news.filterMap Notification.reconciled?
  /-- The wallet is fetched again for each of them. -/
  fetched : calls.count .fetchWalletProperties = (news.filterMap Notification.reconciled?).length
  /-- A wallet that has been created is one that is there. -/
  created : .onWalletInitialized .WALLET_CREATED ∉ news

lemma Agrees.append {calls calls' : List LedgerCall} {news news' : List Notification}
    (h : Agrees calls news) (h' : Agrees calls' news') :
    Agrees (calls ++ calls') (news ++ news') where
  granted := by rw [List.filterMap_append, List.filterMap_append, h.granted, h'.granted]
  reconciled := by rw [List.filterMap_append, List.filterMap_append, h.reconciled, h'.reconciled]
  fetched := by
    rw [List.count_append, List.filterMap_append, List.length_append, h.fetched, h'.fetched]
  created := fun hmem => (List.mem_append.mp hmem).elim h.created h'.created

end Runs

/-! ### A grant and a contribution -/

end RewardsDriver.Service.Relay
