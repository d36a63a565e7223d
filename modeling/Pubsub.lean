import Pubsub.Call
import Pubsub.Cipher
import Pubsub.Client.Basic
import Pubsub.Client.Close
import Pubsub.Client.Crowd
import Pubsub.Client.Dispatch
import Pubsub.Client.Invocation
import Pubsub.Client.Listen
import Pubsub.Client.Run
import Pubsub.Crypto.Aes
import Pubsub.Crypto.Base64
import Pubsub.Crypto.Cbc
import Pubsub.Crypto.Hmac
import Pubsub.Crypto.Md5
import Pubsub.Crypto.Sha256
import Pubsub.Crypto.Words
import Pubsub.Cursor
import Pubsub.Error
import Pubsub.Frontend
import Pubsub.Json.Basic
import Pubsub.Json.Convert
import Pubsub.Json.Display
import Pubsub.Json.Parser
import Pubsub.Json.Text
import Pubsub.Number.Binary64
import Pubsub.Number.Shortest
import Pubsub.Profile
import Pubsub.Proofs.Completion
import Pubsub.Proofs.RetryCycle
import Pubsub.Proofs.Subscribing
import Pubsub.Reactor
import Pubsub.Request.Basic
import Pubsub.Request.Interpret
import Pubsub.Result
import Pubsub.Retry.Cycle
import Pubsub.Retry.Outcome
import Pubsub.Retry.Policy
import Pubsub.Retry.Trial
import Pubsub.Scenario.Drill
import Pubsub.Scenario.Play
import Pubsub.Scenario.Script
import Pubsub.Scenario.Stage
import Pubsub.Session
import Pubsub.Settings
import Pubsub.Signature
import Pubsub.Text.Blank
import Pubsub.Text.Digit
import Pubsub.Text.Lines
import Pubsub.Text.Numeral
import Pubsub.Text.Printable
import Pubsub.Text.Quoted
import Pubsub.Text.Range
import Pubsub.Text.Utf8
import Pubsub.Wire.Percent
import Pubsub.Proofs.Aftermath
import Pubsub.Proofs.Attempts
import Pubsub.Proofs.Recording
import Pubsub.Proofs.Stranding
import Pubsub.Proofs.PercentCoding
import Pubsub.Proofs.Addresses
import Pubsub.Proofs.SentPositions
import Pubsub.Proofs.Base64Coding
import Pubsub.Proofs.BlockCipher
import Pubsub.Proofs.JsonRoundTrip
import Pubsub.Proofs.FiniteValues
import Pubsub.Proofs.EncryptedMessages
import Pubsub.Proofs.Agreement
import Pubsub.Proofs.Beginnings
import Pubsub.Proofs.Failures
import Pubsub.Proofs.Stints
import Pubsub.Proofs.Tallies
import Pubsub.Proofs.Contention
import Pubsub.Proofs.Fates
import Pubsub.Proofs.Closings
import Pubsub.Proofs.Tasks
import Pubsub.Proofs.RetryBudget
import Pubsub.Proofs.Snapshots
import Pubsub.Proofs.Registry
import Pubsub.Proofs.Blocking
import Pubsub.Proofs.Replacement
import Pubsub.Proofs.SignedTexts
import Pubsub.Proofs.Alignment
import Pubsub.Proofs.LoopHistories
import Pubsub.Proofs.Scheduling
import Pubsub.Proofs.Resubscribing
import Pubsub.Proofs.CompactTexts
import Pubsub.Proofs.Origins
import Pubsub.Proofs.Decryption
import Pubsub.Proofs.Stirring
import Pubsub.Proofs.Enduring
