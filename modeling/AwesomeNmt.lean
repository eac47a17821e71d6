import AwesomeNmt.Python.Str
import AwesomeNmt.Python.Sorted
import AwesomeNmt.Bashlint.Node
import AwesomeNmt.Bashlint.Tokens
import AwesomeNmt.Bashlint.Linear
import AwesomeNmt.Bashlint.Policy
import AwesomeNmt.Bashlint.Invariance
import AwesomeNmt.Bashlint.Coverage
import AwesomeNmt.Bashlint.ParenParser
import AwesomeNmt.Bashlint.ParenGrammar
import AwesomeNmt.Bashlint.ParenWords
import AwesomeNmt.Bashlint.ParenCanon
import AwesomeNmt.EncoderDecoder.Batch
import AwesomeNmt.Bashlint.Classify
import AwesomeNmt.EncoderDecoder.BatchLayout
import AwesomeNmt.Bashlint.FillDefault
import AwesomeNmt.Bashlint.Commands
import AwesomeNmt.EncoderDecoder.Step
import AwesomeNmt.NlpTools.Ner
