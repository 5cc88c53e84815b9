import Mathlib.Data.List.Basic

namespace Payserver.Pscli

-- The command line as urfave/cli gives it to an action: ctx.IsSet(name) is
-- whether `flags name` is some value, ctx.String(name) that value.
def Flags := String → Option String

def Flags.of (entries : List (String × Option String)) : Flags := fun name => (entries.lookup name).join

-- The crpc enumerations the actions fill in. A request field of type Option
-- holds none for the enumeration's zero value, which an action leaves in
-- place when an optional flag is unset.
inductive Media where
  | blockchain
  | lightning
  deriving DecidableEq, Repr

inductive Asset where
  | btc
  | bch
  | ltc
  | eth
  | dash
  deriving DecidableEq, Repr

inductive PaymentStatus where
  | waiting
  | pending
  | completed
  | failed
  deriving DecidableEq, Repr

inductive PaymentDirection where
  | outgoing
  | incoming
  deriving DecidableEq, Repr

inductive PaymentSystem where
  | internal
  | external
  deriving DecidableEq, Repr

-- What the actions take from outside the package: strings.ToLower, and the
-- names the generated crpc enumerations print with String().
structure Env where
  toLower : String → String
  statusName : PaymentStatus → String
  directionName : PaymentDirection → String
  systemName : PaymentSystem → String

-- A Go switch over a string: the value of the first case that lists it.
def switchOn {α : Type} (cases : List (List String × α)) (s : String) : Option α :=
  (cases.find? fun c => c.1.contains s).map (·.2)

-- The switch on an enumerated flag that every action repeats: unset, the
-- flag keeps the zero value, or is the error `missing` where the action
-- requires it; set, its value normalised by `norm` selects a case, and a
-- value no case lists is the error `invalid` of the normalised value.
def enumFlag {α : Type} (flags : Flags) (name : String) (norm : String → String) (cases : List (List String × α))
    (invalid : String → String) (missing : Option String) : Except String (Option α) :=
  match flags name, missing with
  | none,none => .ok none
  | none,some err => .error err
  | some raw,_ =>
    match switchOn cases (norm raw) with
    | some v => .ok (some v)
    | none => .error (invalid (norm raw))

-- `if ctx.IsSet(name) { v = ctx.String(name) } else { return missing }`.
def requiredFlag (flags : Flags) (name missing : String) : Except String String :=
  match flags name with
  | some v => .ok v
  | none => .error missing

-- `if ctx.IsSet(name) { v = ctx.String(name) }`, v keeping "" otherwise.
def optionalFlag (flags : Flags) (name : String) : String := (flags name).getD ""

-- The media switch of createReceipt, validateReceipt and balance.
def mediaCases : List (List String × Media) :=
  [(["blockchain"],.blockchain),(["lightning"],.lightning)]

-- The media switch of estimateFee, sendPayment and listPayments, which also
-- take "bl" and "li".
def mediaShortCases : List (List String × Media) :=
  [(["bl","blockchain"],.blockchain),(["li","lightning"],.lightning)]

-- errors.Errorf("invalid <noun> %v, <supported>", value), the error of an
-- enumerated flag whose value no case lists.
def invalidValue (noun supported value : String) : String :=
  "invalid " ++ noun ++ " " ++ value ++ ", " ++ supported

def invalidMedia (stringMedia : String) : String :=
  invalidValue "media type" "support media type are: 'blockchain' and 'lightning'" stringMedia

def assetCases : List (List String × Asset) :=
  [(["btc","bitcoin"],.btc),(["bch","bitcoincash"],.bch),(["ltc","litecoin"],.ltc),
    (["eth","ethereum"],.eth),(["dash"],.dash)]

def invalidAsset (stringAsset : String) : String :=
  invalidValue "asset" "supported assetsare: 'btc', 'bch', 'dash', 'eth', 'ltc'" stringAsset

section
variable (E : Env)

def statusCases : List (List String × PaymentStatus) :=
  [([E.toLower (E.statusName .waiting)],.waiting),([E.toLower (E.statusName .pending)],.pending),
    ([E.toLower (E.statusName .completed)],.completed),([E.toLower (E.statusName .failed)],.failed)]

def directionCases : List (List String × PaymentDirection) :=
  [([E.toLower (E.directionName .outgoing)],.outgoing),([E.toLower (E.directionName .incoming)],.incoming)]

def systemCases : List (List String × PaymentSystem) :=
  [([E.toLower (E.systemName .internal)],.internal),([E.toLower (E.systemName .external)],.external)]

end

def invalidStatus (stringStatus : String) : String :=
  invalidValue "status" "supported statusesare: 'waiting', 'pending', 'completed', 'failed'" stringStatus

def invalidDirection (stringDirection : String) : String :=
  invalidValue "direction" "supported directionare: 'incoming', 'outgoing'" stringDirection

def invalidSystem (stringSystem : String) : String :=
  invalidValue "system" "supported systemare: 'internal', 'external'" stringSystem

structure CreateReceiptRequest where
  asset : Option Asset
  media : Option Media
  amount : String
  description : String
  deriving DecidableEq, Repr

structure ValidateReceiptRequest where
  asset : Option Asset
  media : Option Media
  amount : String
  receipt : String
  deriving DecidableEq, Repr

structure BalanceRequest where
  asset : Option Asset
  media : Option Media
  deriving DecidableEq, Repr

structure EstimateFeeRequest where
  asset : Option Asset
  media : Option Media
  amount : String
  receipt : String
  deriving DecidableEq, Repr

structure SendPaymentRequest where
  asset : Option Asset
  media : Option Media
  amount : String
  receipt : String
  deriving DecidableEq, Repr

structure ListPaymentsRequest where
  status : Option PaymentStatus
  direction : Option PaymentDirection
  asset : Option Asset
  media : Option Media
  system : Option PaymentSystem
  deriving DecidableEq, Repr

section
variable (E : Env) (flags : Flags)

def createReceipt : Except String CreateReceiptRequest := do
  let media ← enumFlag flags "media" id mediaCases invalidMedia (some "media argument missing")
  let asset ← enumFlag flags "asset" E.toLower assetCases invalidAsset (some "asset argument missing")
  return ⟨asset,media,optionalFlag flags "amount",optionalFlag flags "description"⟩

def validateReceipt : Except String ValidateReceiptRequest := do
  let media ← enumFlag flags "media" id mediaCases invalidMedia (some "media argument missing")
  let asset ← enumFlag flags "asset" E.toLower assetCases invalidAsset (some "asset argument missing")
  let amount := optionalFlag flags "amount"
  let receipt ← requiredFlag flags "receipt" "receipt argument is missing"
  return ⟨asset,media,amount,receipt⟩

def balance : Except String BalanceRequest := do
  let media ← enumFlag flags "media" id mediaCases invalidMedia none
  let asset ← enumFlag flags "asset" E.toLower assetCases invalidAsset none
  return ⟨asset,media⟩

def estimateFee : Except String EstimateFeeRequest := do
  let media ← enumFlag flags "media" id mediaShortCases invalidMedia (some "media argument missing")
  let asset ← enumFlag flags "asset" E.toLower assetCases invalidAsset (some "asset argument missing")
  return ⟨asset,media,optionalFlag flags "amount",optionalFlag flags "receipt"⟩

-- The amount may be left out only for lightning, whose invoice can carry it.
def sendPayment : Except String SendPaymentRequest := do
  let media ← enumFlag flags "media" id mediaShortCases invalidMedia (some "media argument missing")
  let asset ← enumFlag flags "asset" E.toLower assetCases invalidAsset (some "asset argument missing")
  let amount ← (match flags "amount" with
    | some amount => pure amount
    | none => if media = some .blockchain then throw "amount argument is missing" else pure "" :
      Except String String)
  let receipt ← requiredFlag flags "receipt" "receipt argument is missing"
  return ⟨asset,media,amount,receipt⟩

def paymentByID : Except String String :=
  requiredFlag flags "id" "id argument is missing"

def paymentByReceipt : Except String String :=
  requiredFlag flags "receipt" "receipt argument is missing"

def listPayments : Except String ListPaymentsRequest := do
  let media ← enumFlag flags "media" id mediaShortCases invalidMedia none
  let asset ← enumFlag flags "asset" E.toLower assetCases invalidAsset none
  let status ← enumFlag flags "status" E.toLower (statusCases E) invalidStatus none
  let direction ← enumFlag flags "direction" E.toLower (directionCases E) invalidDirection none
  let system ← enumFlag flags "system" E.toLower (systemCases E) invalidSystem none
  return ⟨status,direction,asset,media,system⟩

end

-- The commands of pscli, each with the flags its cli.Command declares.
inductive Command where
  | createreceipt
  | validatereceipt
  | balance
  | estimatefee
  | sendpayment
  | paymentbyid
  | paymentbyreceipt
  | listpayments
  deriving DecidableEq, Repr

def Command.flags : Command → List String
  | .createreceipt => ["asset","media","amount","description"]
  | .validatereceipt => ["receipt","asset","media","amount"]
  | .balance => ["asset","media"]
  | .estimatefee => ["asset","media","amount","receipt"]
  | .sendpayment => ["asset","media","amount","receipt"]
  | .paymentbyid => ["id"]
  | .paymentbyreceipt => ["receipt"]
  | .listpayments => ["asset","media","direction","status","system"]

inductive Request where
  | createReceipt (req : CreateReceiptRequest)
  | validateReceipt (req : ValidateReceiptRequest)
  | balance (req : BalanceRequest)
  | estimateFee (req : EstimateFeeRequest)
  | sendPayment (req : SendPaymentRequest)
  | paymentByID (paymentId : String)
  | paymentsByReceipt (receipt : String)
  | listPayments (req : ListPaymentsRequest)
  deriving DecidableEq, Repr

-- A command's Action up to its RPC: the request it sends, or the error it
-- returns before sending one.
def Command.action (E : Env) (flags : Flags) : Command → Except String Request
  | .createreceipt => .createReceipt <$> createReceipt E flags
  | .validatereceipt => .validateReceipt <$> validateReceipt E flags
  | .balance => .balance <$> Pscli.balance E flags
  | .estimatefee => .estimateFee <$> estimateFee E flags
  | .sendpayment => .sendPayment <$> sendPayment E flags
  | .paymentbyid => .paymentByID <$> paymentByID flags
  | .paymentbyreceipt => .paymentsByReceipt <$> paymentByReceipt flags
  | .listpayments => .listPayments <$> listPayments E flags

-- strings.ToLower on ASCII text, and enumeration names as protoc prints
-- them, for the scenarios below.
def asciiEnv : Env where
  toLower s := ⟨s.data.map Char.toLower⟩
  statusName
    | .waiting => "WAITING"
    | .pending => "PENDING"
    | .completed => "COMPLETED"
    | .failed => "FAILED"
  directionName
    | .outgoing => "OUTGOING"
    | .incoming => "INCOMING"
  systemName
    | .internal => "INTERNAL"
    | .external => "EXTERNAL"

-- A message names a flag when the flag's name stands in its text.
def Names (msg name : String) : Prop := ∃ pre post, msg = pre ++ name ++ post

-- Every error the computation returns names one of the flags `declared`.
def NamesIn {α : Type} (declared : List String) (x : Except String α) : Prop :=
  ∀ msg, x = .error msg → ∃ name ∈ declared, Names msg name

section
variable {α β : Type} {declared : List String}

theorem namesIn_pure (a : α) : NamesIn declared (pure a) := fun _ failed => nomatch failed

theorem namesIn_bind {x : Except String α} {f : α → Except String β} (first : NamesIn declared x)
    (rest : ∀ a, NamesIn declared (f a)) : NamesIn declared (x >>= f) := by
  intro msg failed
  cases x with
  | error e => exact first msg (by simpa [bind,Except.bind] using failed)
  | ok a => exact rest a msg failed

theorem namesIn_map {x : Except String α} (f : α → β) (named : NamesIn declared x) : NamesIn declared (f <$> x) := by
  intro msg failed
  cases x with
  | error e => exact named msg (by simpa [Functor.map,Except.map] using failed)
  | ok a => cases failed

theorem enumFlag_namesIn {flags : Flags} {name : String} {norm : String → String} {cases : List (List String × α)}
    {invalid : String → String} {missing : Option String} (mem : name ∈ declared)
    (invalidNames : ∀ s, Names (invalid s) name) (missingNames : ∀ m, missing = some m → Names m name) :
    NamesIn declared (enumFlag flags name norm cases invalid missing) := by
  intro msg failed
  refine ⟨name,mem,?_⟩
  unfold enumFlag at failed
  split at failed
  · cases failed
  · cases failed
    exact missingNames _ rfl
  · split at failed <;> cases failed
    exact invalidNames _

theorem requiredFlag_namesIn {flags : Flags} {name missing : String} (mem : name ∈ declared)
    (named : Names missing name) : NamesIn declared (requiredFlag flags name missing) := by
  intro msg failed
  unfold requiredFlag at failed
  split at failed <;> cases failed
  exact ⟨name,mem,named⟩

end

theorem Names.lead {name post : String} : Names (name ++ post) name := ⟨"",post,by rw [String.empty_append]⟩

theorem invalidValue_names {noun name : String} (rest supported value : String) (lead : noun = name ++ rest) :
    Names (invalidValue noun supported value) name :=
  ⟨"invalid ",rest ++ " " ++ value ++ ", " ++ supported,by subst lead; simp only [invalidValue,String.append_assoc]⟩

theorem missing_names {name post : String} : ∀ m, some (name ++ post) = some m → Names m name :=
  fun _ same => Option.some.inj same ▸ Names.lead

theorem no_missing {name : String} : ∀ m, (none : Option String) = some m → Names m name :=
  fun _ same => nomatch same

theorem Command.action_errors_name_flags (E : Env) (cmd : Command) (flags : Flags) (msg : String)
    (failed : cmd.action E flags = .error msg) : ∃ name ∈ cmd.flags, Names msg name := by
  have media {cases : List (List String × Media)} {missing : Option String} (mem : "media" ∈ cmd.flags)
      (named : ∀ m, missing = some m → Names m "media") :
      NamesIn cmd.flags (enumFlag flags "media" id cases invalidMedia missing) :=
    enumFlag_namesIn mem (fun s => invalidValue_names " type" _ s rfl) named
  have asset {missing : Option String} (mem : "asset" ∈ cmd.flags) (named : ∀ m, missing = some m → Names m "asset") :
      NamesIn cmd.flags (enumFlag flags "asset" E.toLower assetCases invalidAsset missing) :=
    enumFlag_namesIn mem (fun s => invalidValue_names "" _ s rfl) named
  have mediaMissing : ∀ m, some "media argument missing" = some m → Names m "media" :=
    @missing_names "media" " argument missing"
  have assetMissing : ∀ m, some "asset argument missing" = some m → Names m "asset" :=
    @missing_names "asset" " argument missing"
  have receipt : Names "receipt argument is missing" "receipt" := @Names.lead "receipt" " argument is missing"
  refine (?_ : NamesIn cmd.flags (cmd.action E flags)) msg failed
  cases cmd
  case createreceipt =>
    exact namesIn_map _ (namesIn_bind (media (by decide) mediaMissing) fun _ =>
      namesIn_bind (asset (by decide) assetMissing) fun _ => namesIn_pure _)
  case validatereceipt =>
    exact namesIn_map _ (namesIn_bind (media (by decide) mediaMissing) fun _ =>
      namesIn_bind (asset (by decide) assetMissing) fun _ =>
      namesIn_bind (requiredFlag_namesIn (by decide) receipt) fun _ => namesIn_pure _)
  case balance =>
    exact namesIn_map _ (namesIn_bind (media (by decide) no_missing) fun _ =>
      namesIn_bind (asset (by decide) no_missing) fun _ => namesIn_pure _)
  case estimatefee =>
    exact namesIn_map _ (namesIn_bind (media (by decide) mediaMissing) fun _ =>
      namesIn_bind (asset (by decide) assetMissing) fun _ => namesIn_pure _)
  case sendpayment =>
    refine namesIn_map _ (namesIn_bind (media (by decide) mediaMissing) fun media =>
      namesIn_bind (asset (by decide) assetMissing) fun _ => namesIn_bind ?_ fun _ =>
      namesIn_bind (requiredFlag_namesIn (by decide) receipt) fun _ => namesIn_pure _)
    -- the amount, required for blockchain
    intro msg failed
    split at failed
    · cases failed
    · split at failed <;> cases failed
      exact ⟨"amount",by decide,@Names.lead "amount" " argument is missing"⟩
  case paymentbyid => exact namesIn_map _ (requiredFlag_namesIn (by decide) (@Names.lead "id" " argument is missing"))
  case paymentbyreceipt => exact namesIn_map _ (requiredFlag_namesIn (by decide) receipt)
  case listpayments =>
    exact namesIn_map _ (namesIn_bind (media (by decide) no_missing) fun _ =>
      namesIn_bind (asset (by decide) no_missing) fun _ =>
      namesIn_bind (enumFlag_namesIn (by decide) (fun s => invalidValue_names "" _ s rfl) no_missing) fun _ =>
      namesIn_bind (enumFlag_namesIn (by decide) (fun s => invalidValue_names "" _ s rfl) no_missing) fun _ =>
      namesIn_bind (enumFlag_namesIn (by decide) (fun s => invalidValue_names "" _ s rfl) no_missing) fun _ => namesIn_pure _)

-- An asset no case lists: the error echoes it lowered.
example : Command.createreceipt.action asciiEnv (Flags.of [("media",some "blockchain"),("asset",some "DOGE")]) =
    .error (invalidAsset "doge") := rfl

-- The name a user types for each value: the first its switch lists.
def Media.flag : Media → String
  | .blockchain => "blockchain"
  | .lightning => "lightning"

def Asset.flag : Asset → String
  | .btc => "btc"
  | .bch => "bch"
  | .ltc => "ltc"
  | .eth => "eth"
  | .dash => "dash"

-- The command line that asks for a request: each field as its flag, an
-- enumeration by the name a user types for it (String() lowered by the
-- action for status, direction and system), a zero value left unset.
def Request.line (E : Env) : Request → Command × Flags
  | .createReceipt r => (.createreceipt,Flags.of [("asset",r.asset.map Asset.flag),("media",r.media.map Media.flag),
      ("amount",some r.amount),("description",some r.description)])
  | .validateReceipt r => (.validatereceipt,Flags.of [("receipt",some r.receipt),("asset",r.asset.map Asset.flag),
      ("media",r.media.map Media.flag),("amount",some r.amount)])
  | .balance r => (.balance,Flags.of [("asset",r.asset.map Asset.flag),("media",r.media.map Media.flag)])
  | .estimateFee r => (.estimatefee,Flags.of [("asset",r.asset.map Asset.flag),("media",r.media.map Media.flag),
      ("amount",some r.amount),("receipt",some r.receipt)])
  | .sendPayment r => (.sendpayment,Flags.of [("asset",r.asset.map Asset.flag),("media",r.media.map Media.flag),
      ("amount",some r.amount),("receipt",some r.receipt)])
  | .paymentByID id => (.paymentbyid,Flags.of [("id",some id)])
  | .paymentsByReceipt receipt => (.paymentbyreceipt,Flags.of [("receipt",some receipt)])
  | .listPayments r => (.listpayments,Flags.of [("asset",r.asset.map Asset.flag),("media",r.media.map Media.flag),
      ("direction",r.direction.map E.directionName),("status",r.status.map E.statusName),
      ("system",r.system.map E.systemName)])

def Request.Required : Request → Prop
  | .createReceipt r => r.asset.isSome ∧ r.media.isSome
  | .validateReceipt r => r.asset.isSome ∧ r.media.isSome
  | .estimateFee r => r.asset.isSome ∧ r.media.isSome
  | .sendPayment r => r.asset.isSome ∧ r.media.isSome
  | _ => True

section
variable {α : Type}

theorem enumFlag_render {flags : Flags} {name : String} {norm : String → String} {cases : List (List String × α)}
    {invalid : String → String} {missing : Option String} {typed : α → String} {o : Option α}
    (found : ∀ v, switchOn cases (norm (typed v)) = some v) (set : flags name = o.map typed)
    (allowed : o.isSome ∨ missing = none) : enumFlag flags name norm cases invalid missing = .ok o := by
  cases o with
  | none =>
    rcases allowed with absent | rfl
    · cases absent
    · simp only [enumFlag,set,Option.map_none']
  | some v => simp only [enumFlag,set,Option.map_some',found]

theorem switchOn_mediaCases (m : Media) : switchOn mediaCases (id m.flag) = some m := by cases m <;> rfl

theorem switchOn_mediaShortCases (m : Media) : switchOn mediaShortCases (id m.flag) = some m := by cases m <;> rfl

theorem switchOn_names (name : α → String) (distinct : Function.Injective name) :
    ∀ (values : List α) (v : α), v ∈ values → switchOn (values.map fun w => ([name w],w)) (name v) = some v
  | [],_,mem => nomatch mem
  | w :: rest,v,mem => by
    by_cases same : w = v
    · subst same
      simp [switchOn]
    · have later := switchOn_names name distinct rest v ((List.mem_cons.mp mem).resolve_left (Ne.symm same))
      simp only [switchOn,List.map_cons,List.find?_cons] at later ⊢
      have differ : ([name w].contains (name v)) = false := by
        simpa using fun named => same (distinct named.symm)
      rw [differ]
      exact later

end

theorem Request.line_round_trip (E : Env) (lowers : ∀ a : Asset, E.toLower a.flag = a.flag)
    (statuses : Function.Injective fun v => E.toLower (E.statusName v))
    (directions : Function.Injective fun v => E.toLower (E.directionName v))
    (systems : Function.Injective fun v => E.toLower (E.systemName v)) (req : Request) (required : req.Required) :
    (req.line E).1.action E (req.line E).2 = .ok req := by
  have asset (a : Asset) : switchOn assetCases (E.toLower a.flag) = some a := by rw [lowers]; cases a <;> rfl
  cases req with
  | createReceipt r =>
    simp only [Request.line,Command.action,Pscli.createReceipt]
    rw [enumFlag_render switchOn_mediaCases rfl (.inl required.2),enumFlag_render asset rfl (.inl required.1)]
    rfl
  | validateReceipt r =>
    simp only [Request.line,Command.action,Pscli.validateReceipt]
    rw [enumFlag_render switchOn_mediaCases rfl (.inl required.2),enumFlag_render asset rfl (.inl required.1)]
    rfl
  | balance r =>
    simp only [Request.line,Command.action,Pscli.balance]
    rw [enumFlag_render switchOn_mediaCases rfl (.inr rfl),enumFlag_render asset rfl (.inr rfl)]
    rfl
  | estimateFee r =>
    simp only [Request.line,Command.action,Pscli.estimateFee]
    rw [enumFlag_render switchOn_mediaShortCases rfl (.inl required.2),enumFlag_render asset rfl (.inl required.1)]
    rfl
  | sendPayment r =>
    simp only [Request.line,Command.action,Pscli.sendPayment]
    rw [enumFlag_render switchOn_mediaShortCases rfl (.inl required.2),enumFlag_render asset rfl (.inl required.1)]
    rfl
  | paymentByID id => rfl
  | paymentsByReceipt receipt => rfl
  | listPayments r =>
    have status (v : PaymentStatus) : switchOn (statusCases E) (E.toLower (E.statusName v)) = some v :=
      switchOn_names _ statuses [.waiting,.pending,.completed,.failed] v (by cases v <;> decide)
    have direction (v : PaymentDirection) : switchOn (directionCases E) (E.toLower (E.directionName v)) = some v :=
      switchOn_names _ directions [.outgoing,.incoming] v (by cases v <;> decide)
    have system (v : PaymentSystem) : switchOn (systemCases E) (E.toLower (E.systemName v)) = some v :=
      switchOn_names _ systems [.internal,.external] v (by cases v <;> decide)
    simp only [Request.line,Command.action,Pscli.listPayments]
    rw [enumFlag_render switchOn_mediaShortCases rfl (.inr rfl),enumFlag_render asset rfl (.inr rfl),
      enumFlag_render status rfl (.inr rfl),enumFlag_render direction rfl (.inr rfl),enumFlag_render system rfl (.inr rfl)]
    rfl

-- A listing of pending incoming bitcoin payments made by external systems:
-- the line sets status PENDING, which listPayments lowers to its case.
theorem listPayments_line_round_trip_scenario :
    (∀ a : Asset, asciiEnv.toLower a.flag = a.flag) ∧
    Function.Injective (fun v => asciiEnv.toLower (asciiEnv.statusName v)) ∧
    Function.Injective (fun v => asciiEnv.toLower (asciiEnv.directionName v)) ∧
    Function.Injective (fun v => asciiEnv.toLower (asciiEnv.systemName v)) ∧
    (Request.listPayments ⟨some .pending,some .incoming,some .btc,none,some .external⟩).line asciiEnv =
      (.listpayments,Flags.of [("asset",some "btc"),("media",none),("direction",some "INCOMING"),
        ("status",some "PENDING"),("system",some "EXTERNAL")]) ∧
    Command.listpayments.action asciiEnv (Flags.of [("asset",some "btc"),("media",none),("direction",some "INCOMING"),
        ("status",some "PENDING"),("system",some "EXTERNAL")]) =
      .ok (.listPayments ⟨some .pending,some .incoming,some .btc,none,some .external⟩) :=
  have lowers : ∀ a : Asset, asciiEnv.toLower a.flag = a.flag := by intro a; cases a <;> decide
  have statuses : Function.Injective (fun v => asciiEnv.toLower (asciiEnv.statusName v)) := by
    intro a b; cases a <;> cases b <;> decide
  have directions : Function.Injective (fun v => asciiEnv.toLower (asciiEnv.directionName v)) := by
    intro a b; cases a <;> cases b <;> decide
  have systems : Function.Injective (fun v => asciiEnv.toLower (asciiEnv.systemName v)) := by
    intro a b; cases a <;> cases b <;> decide
  ⟨lowers,statuses,directions,systems,rfl,
    Request.line_round_trip asciiEnv lowers statuses directions systems
      (.listPayments ⟨some .pending,some .incoming,some .btc,none,some .external⟩) trivial⟩

end Payserver.Pscli
