import Keyring.Proofs.Account
import Keyring.Proofs.Address.Lines
import Keyring.Proofs.Content.Kinds
import Keyring.Proofs.Content.Stages
import Keyring.Proofs.Content.Written
import Keyring.Proofs.Envelope.Text
import Keyring.Proofs.Key.Child
import Keyring.Proofs.Key.Descent
import Keyring.Proofs.Key.Length
import Keyring.Proofs.Key.Serialized
import Keyring.Proofs.Key.Walk
import Keyring.Proofs.Mnemonic.Batch
import Keyring.Proofs.Mnemonic.Quiz
import Keyring.Settings.Basic
import Keyring.Proofs.Spelling
import Keyring.Proofs.Document.Yaml
import Keyring.Proofs.Settings.Merge
import Keyring.Proofs.Settings.File
