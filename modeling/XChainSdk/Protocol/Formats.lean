import Mathlib.Data.List.Basic

/-!
# The format table

Every action has numbered formats, and a format is a list of slots on the wire.

* `Slot` : the `VERSION` slot, a named field, or a variadic tail `...NAME`.
* `formats` : the table, with the versions a user can broadcast.
* `getFormatFields` : the slots of one format.
-/

namespace XChainSdk

/-- The gas token. -/
def GAS_TICK : String := "XCHAIN"

/-- One slot of a format. -/
inductive Slot where
  | version
  | field (name : String)
  | rest (name : String)
  deriving DecidableEq

namespace Slot

/-- `VERSION` is filled by the SDK and never by the caller. -/
def isAuto : Slot → Bool
  | version => true
  | _ => false

/-- A variadic tail. -/
def isRestField : Slot → Bool
  | rest _ => true
  | _ => false

/-- The name of the slot without the mark of a variadic tail. -/
def baseFieldName : Slot → String
  | version => "VERSION"
  | field name => name
  | rest name => name

end Slot

/-- A format without a variadic tail. -/
def fixed (names : List String) : List Slot := .version :: names.map .field

/-- A format with a variadic tail. -/
def variadic (names : List String) (tail : String) : List Slot := fixed names ++ [.rest tail]

/-- The formats of every action. -/
def formats : List (String × List (ℕ × List Slot)) := [
  ("ADDRESS", [
    (0, fixed ["FEE_PREFERENCE", "REQUIRE_MEMO", "DISPENSER_PREFERENCE", "MEMO"]),
    (1, fixed ["CONTROLLER", "ACTION_CLASS", "COOLDOWN_BLOCKS", "UNBIND", "MEMO"])]),
  ("AIRDROP", [
    (0, fixed ["TICK", "AMOUNT", "LIST_ACTION_INDEX", "MEMO"]),
    (1, fixed ["LIST_ACTION_INDEX", "TICK", "AMOUNT", "TICK", "AMOUNT", "MEMO"]),
    (2, fixed ["TICK", "AMOUNT", "LIST_ACTION_INDEX", "TICK", "AMOUNT", "LIST_ACTION_INDEX",
      "MEMO"]),
    (3, fixed ["TICK", "AMOUNT", "LIST_ACTION_INDEX", "MEMO", "TICK", "AMOUNT",
      "LIST_ACTION_INDEX", "MEMO"])]),
  ("BATCH", [
    (0, fixed ["COMMAND"])]),
  ("BET", [
    (0, fixed ["LABEL", "OUTCOMES", "TICK", "FEE", "DEADLINE", "REFUND_WINDOW", "MIN_AMOUNT",
      "ALLOW_LIST", "BLOCK_LIST", "DETAILS", "MEMO"]),
    (1, fixed ["FEED_ACTION_INDEX", "MEMO"]),
    (2, fixed ["FEED_ACTION_INDEX", "OUTCOME", "AMOUNT", "MEMO"]),
    (3, fixed ["FEED_ACTION_INDEX", "OUTCOME", "MEMO"]),
    (4, fixed ["FEED_ACTION_INDEX", "ALLOW_LIST", "BLOCK_LIST", "MEMO"])]),
  ("BROADCAST", [
    (0, fixed ["MESSAGE", "VALUE"]),
    (1, fixed ["MESSAGE", "VALUE", "FEE", "MEMO"]),
    (2, fixed ["MESSAGE", "FEE", "MEMO"]),
    (3, fixed ["BROADCAST_ACTION_INDEX", "VALUE", "MEMO"])]),
  ("COLLECT", [
    (0, fixed ["AMOUNT"])]),
  ("COINPAY", [
    (0, fixed ["ORDER_MATCH_ACTION_INDEX"])]),
  ("CALLBACK", [
    (0, fixed ["TICK", "MEMO"])]),
  ("DELEGATE", [
    (0, fixed ["NEW_SIGNING_PUBKEY"]),
    (1, fixed ["NEW_SIGNING_PUBKEY", "TARGET_CONTRACT_INDEX", "TICK"]),
    (2, fixed ["SIGNING_PUBKEY"]),
    (3, fixed ["SIGNING_PUBKEY", "TARGET_CONTRACT_INDEX", "TICK"])]),
  ("DEPLOY", [
    (0, variadic ["CODE_ENCODING", "GAS_LIMIT"] "CONSTRUCTOR_PARAMS"),
    (1, fixed ["CODE_ENCODING", "GAS_LIMIT", "CONSTRUCTOR_PARAMS", "COOLDOWN_BLOCKS",
      "SLASH_DESTINATION"]),
    (2, variadic ["CODE_HASH", "GAS_LIMIT"] "CONSTRUCTOR_PARAMS"),
    (3, fixed ["CODE_HASH", "GAS_LIMIT", "CONSTRUCTOR_PARAMS", "COOLDOWN_BLOCKS",
      "SLASH_DESTINATION"]),
    (4, fixed ["CODE_HASH", "CHUNK_INDEX", "TOTAL_CHUNKS", "CODE_PART"])]),
  ("DEPOSIT", [
    (0, fixed ["CONTRACT_ACTION_INDEX", "TICK", "QUANTITY"])]),
  ("DESTROY", [
    (0, fixed ["TICK", "AMOUNT", "MEMO"]),
    (1, fixed ["TICK", "AMOUNT", "TICK", "AMOUNT", "MEMO"]),
    (2, fixed ["TICK", "AMOUNT", "MEMO", "TICK", "AMOUNT", "MEMO"])]),
  ("DISPENSER", [
    (0, fixed ["GIVE_COIN", "GIVE_TICK", "GIVE_AMOUNT", "GIVE_OWNERSHIP", "GIVE_ESCROW",
      "GET_COIN", "GET_TICK", "GET_AMOUNT", "GET_ADDRESS", "FIAT_CODE", "FIAT_AMOUNT",
      "ORACLE_ADDRESS", "EXPIRATION", "ALLOW_LIST", "BLOCK_LIST", "MEMO"]),
    (1, fixed ["DISPENSER_ACTION_INDEX", "MEMO"]),
    (2, fixed ["DISPENSER_ACTION_INDEX", "GIVE_ESCROW", "EXPIRATION", "ALLOW_LIST", "BLOCK_LIST",
      "MEMO"])]),
  ("DIVIDEND", [
    (0, fixed ["TICK", "DIVIDEND_TICK", "AMOUNT", "MEMO"])]),
  ("EXECUTE", [
    (0, variadic ["CONTRACT_ACTION_INDEX", "METHOD"] "PARAMS")]),
  ("FILE", [
    (0, fixed ["NAME", "TYPE", "TITLE", "MEMO", "GATE_TICKER", "ENCRYPTION_METHOD", "KEY_HASH",
      "GATE_MIN_AMOUNT", "COMPRESSION"])]),
  ("ISSUE", [
    (0, fixed ["TICK", "MAX_SUPPLY", "MAX_MINT", "DECIMALS", "DESCRIPTION", "MINT_SUPPLY",
      "TRANSFER", "TRANSFER_SUPPLY", "LOCK_MAX_SUPPLY", "LOCK_MAX_MINT", "LOCK_DESCRIPTION",
      "LOCK_SLEEP", "LOCK_CALLBACK", "CALLBACK_BLOCK", "CALLBACK_TICK", "CALLBACK_AMOUNT",
      "ALLOW_LIST", "BLOCK_LIST", "MINT_ADDRESS_MAX", "MINT_START_BLOCK", "MINT_STOP_BLOCK",
      "LOCK_MINT", "LOCK_MINT_SUPPLY", "MEMO"]),
    (1, fixed ["TICK", "DESCRIPTION", "MEMO"]),
    (2, fixed ["TICK", "MAX_MINT", "MINT_SUPPLY", "TRANSFER_SUPPLY", "MINT_ADDRESS_MAX",
      "MINT_START_BLOCK", "MINT_STOP_BLOCK", "MEMO"]),
    (3, fixed ["TICK", "LOCK_MAX_SUPPLY", "LOCK_MAX_MINT", "LOCK_DESCRIPTION", "LOCK_SLEEP",
      "LOCK_CALLBACK", "LOCK_MINT", "LOCK_MINT_SUPPLY", "MEMO"]),
    (4, fixed ["TICK", "CALLBACK_BLOCK", "CALLBACK_TICK", "CALLBACK_AMOUNT", "MEMO"]),
    (5, fixed ["TICK", "ALLOW_LIST", "BLOCK_LIST", "MEMO"]),
    (6, fixed ["TICK", "CONTROLLER", "ACTION_CLASS", "COOLDOWN_BLOCKS", "UNBIND", "MEMO"]),
    (7, fixed ["TICK", "BRIDGE_CHAINS", "MIN_DEPTH", "LOCK_BRIDGE", "MEMO"])]),
  ("LINK", [
    (0, fixed ["COIN1", "COIN1_ACTION_INDEX", "COIN2", "COIN2_ACTION_INDEX", "MEMO"])]),
  ("LIST", [
    (0, variadic ["TYPE", "MEMO"] "ITEM"),
    (1, variadic ["EDIT", "LIST_ACTION_INDEX", "MEMO"] "ITEM"),
    (2, fixed ["LIST_ACTION_INDEX", "MEMO"]),
    (3, fixed ["LIST_ACTION_INDEX", "DESTINATION", "MEMO"]),
    (4, variadic ["TYPE", "NAME", "DESCRIPTION", "MEMO"] "ITEM"),
    (5, fixed ["LIST_ACTION_INDEX", "NAME", "DESCRIPTION", "MEMO"])]),
  ("MESSAGE", [
    (0, fixed ["COIN", "DESTINATION", "ENCRYPTION_METHOD", "ENCRYPTION_KEY"]),
    (1, fixed ["COIN", "DESTINATION", "ENCRYPTION_METHOD", "ENCRYPTION_KEY"]),
    (2, fixed ["COIN", "DESTINATION", "ENCRYPTED_MESSAGE"]),
    (3, fixed ["COIN", "DESTINATION", "PLAINTEXT_MESSAGE"])]),
  ("MINT", [
    (0, fixed ["TICK", "AMOUNT", "DESTINATION", "MEMO"])]),
  ("ORDER", [
    (0, fixed ["GIVE_COIN", "GIVE_TICK", "GIVE_AMOUNT", "GIVE_OWNERSHIP", "GET_COIN", "GET_TICK",
      "GET_AMOUNT", "GET_OWNERSHIP", "GET_ADDRESS", "EXPIRATION", "ALLOW_LIST", "BLOCK_LIST",
      "MEMO"]),
    (1, fixed ["ORDER_ACTION_INDEX", "MEMO"]),
    (2, fixed ["ORDER_ACTION_INDEX", "EXPIRATION", "ALLOW_LIST", "BLOCK_LIST", "MEMO"])]),
  ("PRICE", [
    (1, fixed ["COIN", "TICK", "FIAT", "VALUE", "FEE", "MEMO"])]),
  ("SEND", [
    (0, fixed ["TICK", "AMOUNT", "DESTINATION", "MEMO"]),
    (1, fixed ["TICK", "AMOUNT", "DESTINATION", "AMOUNT", "DESTINATION", "MEMO"]),
    (2, fixed ["TICK", "AMOUNT", "DESTINATION", "TICK", "AMOUNT", "DESTINATION", "MEMO"]),
    (3, fixed ["TICK", "AMOUNT", "DESTINATION", "MEMO", "TICK", "AMOUNT", "DESTINATION", "MEMO"])]),
  ("SLEEP", [
    (0, fixed ["RESUME_BLOCK", "MEMO"]),
    (1, fixed ["RESUME_BLOCK", "TICK", "MEMO"])]),
  ("STAKE", [
    (1, fixed ["AMOUNT", "SIGNING_PUBKEY"]),
    (2, fixed ["AMOUNT", "SIGNING_PUBKEY"]),
    (3, fixed ["AMOUNT", "SIGNING_PUBKEY", "TARGET_CONTRACT_INDEX", "TICK"])]),
  ("SWAP", [
    (0, fixed ["GIVE_COIN", "GIVE_TICK", "GIVE_AMOUNT", "GIVE_OWNERSHIP", "GET_COIN", "GET_TICK",
      "GET_AMOUNT", "GET_OWNERSHIP", "GET_ADDRESS", "EXPIRATION", "ALLOW_LIST", "BLOCK_LIST",
      "MEMO"]),
    (1, fixed ["SWAP_ACTION_INDEX", "MEMO"]),
    (2, fixed ["SWAP_ACTION_INDEX", "EXPIRATION", "ALLOW_LIST", "BLOCK_LIST", "MEMO"])]),
  ("SWEEP", [
    (0, fixed ["DESTINATION", "BALANCES", "OWNERSHIPS", "ORDERS", "SWAPS", "DISPENSERS", "MEMO"])]),
  ("UNSTAKE", [
    (0, fixed ["SIGNING_PUBKEY", "AMOUNT"]),
    (1, fixed ["SIGNING_PUBKEY", "TARGET_CONTRACT_INDEX", "TICK", "AMOUNT"])]),
  ("WITHDRAW", [
    (0, fixed ["CONTRACT_ACTION_INDEX", "TICK", "QUANTITY"])]),
  ("XBRIDGE", [
    (0, fixed ["DEST_COIN", "DEST_ADDRESS", "AMOUNT", "MEMO"]),
    (1, fixed ["BTC_ADDRESS", "AMOUNT", "MEMO"]),
    (3, fixed ["TICK", "DEST_COIN", "DEST_ADDRESS", "AMOUNT", "MEMO"]),
    (4, fixed ["TICK", "ORIGIN_ADDRESS", "AMOUNT", "MEMO"])]),
  ("VOTE", [
    (0, fixed ["TICK", "END_BLOCK", "OPTIONS", "MAX_SELECTIONS", "TALLY_MODE", "WEIGHT_MODE",
      "QUORUM", "MIN_VOTERS", "MIN_VOTE_BALANCE", "DECIDE_THRESHOLD", "QUESTION", "DEPOSIT",
      "CALLBACK_CONTRACT", "CALLBACK_METHOD", "CALLBACK_PARAMS", "CALLBACK_ON", "GAS_ESCROW",
      "CALLBACK_DELAY_BLOCKS"]),
    (1, fixed ["POLL_REF", "BALLOT", "MEMO"]),
    (3, fixed ["TICK", "DELEGATE_TO", "MEMO"])])]

/-- The slots of a format; an unknown action or version throws. -/
def getFormatFields (action : String) (version : ℕ) : Option (List Slot) :=
  (formats.lookup action).bind fun versions => versions.lookup version

end XChainSdk
