import Dovecot.Imap.Arg
import Dovecot.Imap.RoundTrip
import Dovecot.Imap.Normal
import Dovecot.Bodystructure.Part
import Dovecot.Bodystructure.Shape
import Dovecot.Bodystructure.Extension
import Dovecot.Bodystructure.Reduce
import Dovecot.Bodystructure.ReduceSpec
import Dovecot.Bodystructure.Reduction
import Dovecot.Bodystructure.Grammar
import Dovecot.Bodystructure.Header
import Dovecot.Bodystructure.HeaderFold
import Dovecot.Bodystructure.Cached
import Dovecot.Bodystructure.Language
import Dovecot.Bodystructure.Reparse
import Dovecot.Acl.Mask
import Dovecot.Acl.Cache
import Dovecot.Acl.CurrentRights
import Dovecot.Acl.RightNames
import Dovecot.Acl.Modify
import Dovecot.Acl.Refinement
import Dovecot.Acl.Laws
import Dovecot.Bodystructure.ReadBounds
